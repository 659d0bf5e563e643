import FileSelection.Proofs.Act
import FileSelection.Proofs.Glob.Compilation
import FileSelection.Selection

/-!
# Rules made of globs

Patterns that are added to a selection of globs become one rule, which looks at nothing but the
reported relative path of an entry.
-/

namespace FileSelection

variable {σ : Type}

namespace Rule

def ofGlobs (caseSensitive : Bool) (patterns : List String) : List (Rule σ) :=
  if patterns.isEmpty then []
  else [.matching (.glob patterns caseSensitive
    (patterns.map fun pattern => Glob.compiled pattern "/" caseSensitive))]

theorem ofItems?_patterns [Ignore.Library] (caseSensitive : Bool) (patterns : List String) :
    Rule.ofItems? (σ := σ) Engine.glob.name caseSensitive (patterns.map .pattern) =
      .ok (ofGlobs caseSensitive patterns) := by
  have hrefused : (patterns.map RuleItem.pattern).findSome? (RuleItem.refused? (σ := σ)) = none := by
    simp [RuleItem.refused?]
  have hpatterns : (patterns.map RuleItem.pattern).filterMap (RuleItem.pattern? (σ := σ)) =
      patterns := by
    simp [RuleItem.pattern?, Function.comp_def]
  have hexpressions : (patterns.map RuleItem.pattern).filterMap (RuleItem.expression? (σ := σ)) =
      [] := by
    simp [RuleItem.expression?]
  have hrules : (patterns.map RuleItem.pattern).filterMap (RuleItem.rule? (σ := σ)) = [] := by
    simp [RuleItem.rule?]
  have hmatcher : Matcher.ofPatterns? .glob caseSensitive patterns = .ok (.glob patterns caseSensitive
      (patterns.map fun pattern => Glob.compiled pattern "/" caseSensitive)) :=
    Glob.ofGlobs?_eq patterns '/' caseSensitive
  unfold Rule.ofItems? ofGlobs
  simp only [hrefused, hpatterns, hexpressions, hrules]
  cases hempty : patterns.isEmpty with
  | true => rfl
  | false =>
      show (Except.bind (Matcher.ofPatterns? .glob caseSensitive patterns) _) = _
      rw [hmatcher]
      rfl

theorem anyHolds_append (host : Host σ) (rules others : List (Rule σ)) (entry : Entry) :
    anyHolds host (rules ++ others) entry =
      (do if ← anyHolds host rules entry then pure true else anyHolds host others entry) := by
  induction rules with
  | nil => simp [anyHolds]
  | cons rule rules ih =>
      simp only [List.cons_append, anyHolds, bind_assoc]
      apply bind_congr
      intro holds
      cases holds with
      | true => simp
      | false => simpa using ih

theorem anyHolds_ofGlobs (host : Host σ) (caseSensitive : Bool) (patterns : List String)
    (entry : Entry) :
    anyHolds host (ofGlobs caseSensitive patterns) entry =
      pure (patterns.any fun pattern =>
        (Glob.compiled pattern "/" caseSensitive).accepts entry.relative) := by
  unfold ofGlobs
  cases patterns with
  | nil => rfl
  | cons pattern patterns =>
      simp only [List.isEmpty_cons, Bool.false_eq_true, if_false, anyHolds, holds,
        Matcher.needsKind, Matcher.accepts, pure_bind, List.any_map, Function.comp_def]
      cases (pattern :: patterns).any fun pattern =>
          (Glob.compiled pattern "/" caseSensitive).accepts entry.relative with
      | true => rfl
      | false => rfl

end Rule

/-! ## Adding rules -/

inductive RuleSet.Role where
  | includes
  | excludes
  | prunes

def RuleSet.extend (rules : RuleSet σ) (more : List (Rule σ)) : Role → RuleSet σ
  | .includes => { rules with includes := rules.includes ++ more }
  | .excludes => { rules with excludes := rules.excludes ++ more }
  | .prunes => { rules with prunes := rules.prunes ++ more }

namespace Selection

def extend (selection : Selection σ) (more : List (Rule σ)) (role : RuleSet.Role) : Selection σ :=
  { selection with rules := selection.rules.extend more role }

section

variable {selection : Selection σ} (h : selection.engine = .glob) (patterns : List String)

include h

theorem compile_patterns [Ignore.Library] : selection.compile (patterns.map .pattern) =
    .ok (Rule.ofGlobs selection.caseSensitive patterns) := by
  rw [compile, h]
  exact Rule.ofItems?_patterns selection.caseSensitive patterns

theorem includes_patterns [Ignore.Library] : selection.includes (patterns.map .pattern) =
    .ok (selection.extend (Rule.ofGlobs selection.caseSensitive patterns) .includes) := by
  rw [includes, compile_patterns h]
  rfl

theorem excludes_patterns [Ignore.Library] : selection.excludes (patterns.map .pattern) =
    .ok (selection.extend (Rule.ofGlobs selection.caseSensitive patterns) .excludes) := by
  rw [excludes, compile_patterns h]
  rfl

theorem prunes_patterns [Ignore.Library] : selection.prunes (patterns.map .pattern) =
    .ok (selection.extend (Rule.ofGlobs selection.caseSensitive patterns) .prunes) := by
  rw [prunes, compile_patterns h]
  rfl

end

end Selection

end FileSelection
