import FileSelection.Ignore.Standard
import FileSelection.Proofs.Ignore.Laws
import FileSelection.Proofs.Text.Line
import Mathlib.Data.List.Basic

/-!
# The usual reading keeps the laws

Blank lines and comments become idle rules, which never apply.  Idle rules can be left out, and so
the usual reading of ignore rules is a library as it is relied on.
-/

namespace FileSelection.Ignore.Standard

open Failure Text

/-! ## Idle rules -/

def Rule.isIdle : Rule → Bool
  | .idle => true
  | .rule _ _ => false

def active (rules : List Rule) : List Rule := rules.filter (!·.isIdle)

theorem reaches_active (rules : List Rule) (path : List Char) :
    (active rules).filterMap (·.reach? path) = rules.filterMap (·.reach? path) := by
  rw [active, List.filterMap_filter]
  refine List.filterMap_congr fun rule _ => ?_
  cases rule with
  | idle | rule _ _ => rfl

theorem ignores_active (rules : List Rule) : ignores (active rules) = ignores rules := by
  funext path
  unfold ignores
  rw [reaches_active]

/-! ## Reading lines -/

section

variable {line : String} {lines others : List String}

theorem ofLine?_of_blank (h : ∀ c ∈ line.toList, isBlank c = true) :
    Rule.ofLine? line = .ok .idle := by
  have hescaped : ¬ ['\\', ' '].isSuffixOf line.toList = true := fun hsuffix =>
    absurd (h '\\' ((List.isSuffixOf_iff_suffix.1 hsuffix).subset (by simp))) (by decide)
  have htrim : trimLine line.toList = [] := (if_neg hescaped).trans (trimEnd_eq_nil h)
  unfold Rule.ofLine?
  simp only [htrim]
  rfl

theorem ofLine?_of_comment (h : line.toList.head? = some '#') : Rule.ofLine? line = .ok .idle := by
  obtain ⟨rest, hline⟩ := List.head?_eq_some_iff.1 h
  obtain ⟨rest, htrim⟩ : ∃ rest, trimLine line.toList = '#' :: rest := by
    rw [hline, trimLine]
    split
    · exact ⟨rest, rfl⟩
    · exact ⟨trimEnd rest, trimEnd_cons (by decide)⟩
  unfold Rule.ofLine?
  simp only [htrim]
  rfl

theorem ofLine?_faults (line : String) :
    Only (fun failure => failure = .badIgnoreLine line ∨ Regex.IsFault failure)
      (Rule.ofLine? line) := by
  unfold Rule.ofLine?
  dsimp only
  split
  · exact .ok _
  · exact .ok _
  · exact .ok _
  split
  · exact .ok _
  · exact .error (.inl rfl)
  · refine Only.bind ?_ fun _ _ => .ok _
    exact (Regex.parse?_faults _ _).mono fun _ => .inr

theorem ofLines?_cons (line : String) (lines : List String) :
    ofLines? (line :: lines) =
      if line = "" then ofLines? lines
      else (Rule.ofLine? line).bind fun rule => (ofLines? lines).map (rule :: ·) := by
  unfold ofLines?
  by_cases hline : line = ""
  · simp [hline]
  · have hkept : (line :: lines).filter (!·.isEmpty) = line :: lines.filter (!·.isEmpty) := by
      simp [hline]
    rw [hkept, List.mapM_cons, if_neg hline]
    rfl

theorem ofLines?_cons_eq (line : String) (lines : List String) :
    ofLines? (line :: lines) =
      (ofLines? [line]).bind fun first => (ofLines? lines).map (first ++ ·) := by
  rw [ofLines?_cons, ofLines?_cons line []]
  by_cases hempty : line = ""
  · rw [if_pos hempty, if_pos hempty]
    cases ofLines? lines with
    | error failure | ok rules => rfl
  · rw [if_neg hempty, if_neg hempty]
    cases Rule.ofLine? line with
    | error failure | ok rule => rfl

theorem active_ofLines?_of_idle (hline : Rule.ofLine? line = .ok .idle) :
    (ofLines? (line :: lines)).map active = (ofLines? lines).map active := by
  rw [ofLines?_cons]
  by_cases hempty : line = ""
  · rw [if_pos hempty]
  · rw [if_neg hempty, hline]
    cases ofLines? lines with
    | error failure | ok rules => rfl

theorem active_ofLines?_congr (h : (ofLines? lines).map active = (ofLines? others).map active) :
    (ofLines? (line :: lines)).map active = (ofLines? (line :: others)).map active := by
  have hactive (rule : Rule) (lines : List String) :
      ((ofLines? lines).map (rule :: ·)).map active =
        ((ofLines? lines).map active).map (active [rule] ++ ·) := by
    cases ofLines? lines with
    | error failure => rfl
    | ok rules => exact congrArg Except.ok (List.filter_append [rule] rules)
  rw [ofLines?_cons, ofLines?_cons]
  by_cases hempty : line = ""
  · rwa [if_pos hempty, if_pos hempty]
  · rw [if_neg hempty, if_neg hempty]
    cases Rule.ofLine? line with
    | error failure => rfl
    | ok rule =>
        change ((ofLines? lines).map (rule :: ·)).map active =
          ((ofLines? others).map (rule :: ·)).map active
        rw [hactive, hactive, h]

theorem decisions?_eq (lines : List String) :
    decisions? lines = ((ofLines? lines).map active).map ignores := by
  change ((ofLines? lines).map _).map Rules.ignores = _
  cases ofLines? lines with
  | error failure => rfl
  | ok rules => exact congrArg Except.ok (ignores_active rules).symm

theorem decisions?_of_idle (hline : Rule.ofLine? line = .ok .idle) (before after : List String) :
    decisions? (before ++ line :: after) = decisions? (before ++ after) := by
  have hactive : (ofLines? (before ++ line :: after)).map active =
      (ofLines? (before ++ after)).map active := by
    induction before with
    | nil => exact active_ofLines?_of_idle hline
    | cons first before ih => exact active_ofLines?_congr ih
  rw [decisions?_eq, decisions?_eq, hactive]

end

/-! ## Laws -/

theorem skipsComments : Library.SkipsComments where
  nothing := rfl
  blank before after h := decisions?_of_idle (ofLine?_of_blank h) before after
  comment before after h := decisions?_of_idle (ofLine?_of_comment h) before after

theorem readsByLine : Library.ReadsByLine where
  nothing := ⟨_, rfl⟩
  cons_eq_error_iff line lines failure := by
    change (ofLines? (line :: lines)).map _ = _ ↔
      (ofLines? [line]).map _ = _ ∨
        (∃ rules, (ofLines? [line]).map _ = _) ∧ (ofLines? lines).map _ = _
    rw [ofLines?_cons_eq]
    cases ofLines? [line] with
    | error other => simp [Except.map, Except.bind]
    | ok first => cases ofLines? lines <;> simp [Except.map, Except.bind]
  faults line := by
    change Only _ ((ofLines? [line]).map _)
    refine Only.map ?_ _
    rw [ofLines?_cons]
    split
    · exact .ok _
    · exact (ofLine?_faults line).bind fun _ _ => .ok _
  refusal := rfl

end FileSelection.Ignore.Standard
