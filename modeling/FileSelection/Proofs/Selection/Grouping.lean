import FileSelection.FileSystem.Session
import FileSelection.Ignore.Standard
import FileSelection.Proofs.Selection.Failures
import FileSelection.Proofs.Selection.Globs

/-!
# How items are grouped

Items are given in several calls, and each call makes rules of its own from them.  What the rules
say in the end is what the items say one by one, so that it only matters which items were given for
what.
-/

namespace FileSelection

open Act

variable {σ : Type}

/-! ## Items and rules -/

namespace Rule

def ofPatterns? [Ignore.Library] (engine : String) (caseSensitive : Bool) (patterns : List String) :
    Except Failure (List (Rule σ)) :=
  if patterns.isEmpty then .ok []
  else (Engine.ofName? engine).bind fun engine =>
    (Matcher.ofPatterns? engine caseSensitive patterns).map fun matcher => [.matching matcher]

def ofExpressions (expressions : List Expression) : List (Rule σ) :=
  if expressions.isEmpty then [] else [.matching (.regex expressions)]

theorem ofExpressions_eq_nil_iff {expressions : List Expression} :
    ofExpressions (σ := σ) expressions = [] ↔ expressions = [] := by
  cases expressions with
  | nil | cons _ _ => simp [ofExpressions]

/-- The first refused item decides; without one, the rules of the patterns come first, then those of
the expressions and the ready ones. -/
theorem ofItems?_eq [Ignore.Library] (engine : String) (caseSensitive : Bool)
    (items : List (RuleItem σ)) :
    ofItems? engine caseSensitive items =
      match items.findSome? RuleItem.refused? with
      | some value => .error (if value.isShown then .notAPattern value.shown else .longValue)
      | none => (ofPatterns? engine caseSensitive (items.filterMap RuleItem.pattern?)).map
          fun rules => rules ++ ofExpressions (items.filterMap RuleItem.expression?) ++
            items.filterMap RuleItem.rule? := by
  unfold ofItems? ofPatterns?
  cases items.findSome? RuleItem.refused? with
  | some value => rfl
  | none =>
      simp only
      cases (items.filterMap RuleItem.pattern?).isEmpty with
      | true => rfl
      | false =>
          cases Engine.ofName? engine with
          | error failure => rfl
          | ok known =>
              simp only [Bool.false_eq_true, if_false]
              show Except.bind (Matcher.ofPatterns? known caseSensitive _) _ =
                Except.map _ (Except.map _ (Matcher.ofPatterns? known caseSensitive _))
              cases Matcher.ofPatterns? known caseSensitive (items.filterMap RuleItem.pattern?) with
              | error failure | ok matcher => rfl

end Rule

/-! ## Single items -/

namespace RuleItem

section

variable (engine : Engine) (caseSensitive : Bool) (verdict : Rule σ → Entry → Bool)

/-- What an item says of an entry by itself, when the verdicts of ready rules are known. -/
def meets [Ignore.Library] (entry : Entry) : RuleItem σ → Bool
  | .pattern text =>
      match Matcher.ofPatterns? engine caseSensitive [text] with
      | .ok matcher => matcher.accepts false entry.relative
      | .error _ => false
  | .regex expression => expression.accepts entry.relative
  | .ready rule => verdict rule entry
  | .other _ => false

end

/-- The item is not refused, and if it is a ready rule, it always answers with its verdict. -/
def IsPure (host : Host σ) (steady : σ → Prop) (verdict : Rule σ → Entry → Bool) :
    RuleItem σ → Prop
  | .pattern _ | .regex _ => True
  | .ready rule => ∀ entry, Answers steady (rule.holds host entry) (.ok (verdict rule entry))
  | .other _ => False

end RuleItem

theorem Matcher.exists_ofPatterns? [Ignore.Library] {engine : Engine} (hengine : engine ≠ .ignore)
    (caseSensitive : Bool) (patterns : List String) :
    ∃ matcher, Matcher.ofPatterns? engine caseSensitive patterns = .ok matcher ∧
      matcher.needsKind = false ∧
      ∀ relative, matcher.accepts false relative = patterns.any fun text =>
        match Matcher.ofPatterns? engine caseSensitive [text] with
        | .ok single => single.accepts false relative
        | .error _ => false := by
  cases engine with
  | ignore => exact absurd rfl hengine
  | segmented =>
      refine ⟨_, rfl, rfl, fun relative => ?_⟩
      simp [Matcher.ofPatterns?, Matcher.accepts]
  | glob =>
      have hglobs : ∀ patterns, Matcher.ofPatterns? .glob caseSensitive patterns =
          .ok (.glob patterns caseSensitive
            (patterns.map fun pattern => Glob.compiled pattern "/" caseSensitive)) :=
        fun patterns => Glob.ofGlobs?_eq patterns '/' caseSensitive
      refine ⟨_, hglobs patterns, rfl, fun relative => ?_⟩
      simp [hglobs, Matcher.accepts, Function.comp_def]

namespace Rule

variable {host : Host σ} {steady : σ → Prop} {entry : Entry}

theorem answers_anyHolds_append {rules others : List (Rule σ)} {answer other : Bool}
    (h : Answers steady (anyHolds host rules entry) (.ok answer))
    (hothers : Answers steady (anyHolds host others entry) (.ok other)) :
    Answers steady (anyHolds host (rules ++ others) entry) (.ok (answer || other)) := by
  rw [anyHolds_append]
  refine h.bind ?_
  cases answer with
  | true => exact .pure true
  | false => exact hothers

theorem answers_anyHolds_matching {matcher : Matcher} (h : matcher.needsKind = false) :
    Answers steady (anyHolds host [.matching matcher] entry)
      (.ok (matcher.accepts false entry.relative)) := by
  have hholds : Answers steady (holds host (.matching matcher) entry)
      (.ok (matcher.accepts false entry.relative)) := by
    simp only [holds, h, Bool.false_eq_true, if_false, pure_bind]
    exact .pure _
  refine hholds.bind ?_
  cases matcher.accepts false entry.relative with
  | true | false => exact .pure _

theorem answers_anyHolds_of_forall {verdict : Rule σ → Entry → Bool} {rules : List (Rule σ)}
    (h : ∀ rule ∈ rules, Answers steady (rule.holds host entry) (.ok (verdict rule entry))) :
    Answers steady (anyHolds host rules entry) (.ok (rules.any (verdict · entry))) := by
  induction rules with
  | nil => exact .pure false
  | cons rule rules ih =>
      obtain ⟨hrule, hrules⟩ := List.forall_mem_cons.1 h
      refine hrule.bind ?_
      rw [List.any_cons]
      cases verdict rule entry with
      | true => exact .pure true
      | false => exact ih hrules

end Rule

/-! ## The rules of one call -/

section

variable {host : Host σ} {steady : σ → Prop} {verdict : Rule σ → Entry → Bool} {engine : Engine}
  {caseSensitive : Bool} {items : List (RuleItem σ)}

theorem any_meets_eq [Ignore.Library] (hitems : ∀ item ∈ items, item.IsPure host steady verdict)
    (entry : Entry) :
    items.any (·.meets engine caseSensitive verdict entry) =
      ((items.filterMap RuleItem.pattern?).any (fun text =>
          (RuleItem.pattern text).meets engine caseSensitive verdict entry) ||
        (items.filterMap RuleItem.expression?).any (·.accepts entry.relative) ||
          (items.filterMap RuleItem.rule?).any (verdict · entry)) := by
  induction items with
  | nil => rfl
  | cons item items ih =>
      obtain ⟨hitem, hitems⟩ := List.forall_mem_cons.1 hitems
      rw [List.any_cons, ih hitems]
      cases item with
      | pattern text =>
          simp [RuleItem.pattern?, RuleItem.expression?, RuleItem.rule?, Bool.or_assoc]
      | regex expression =>
          simp [RuleItem.pattern?, RuleItem.expression?, RuleItem.rule?, RuleItem.meets,
            Bool.or_assoc, Bool.or_left_comm]
      | ready rule =>
          simp [RuleItem.pattern?, RuleItem.expression?, RuleItem.rule?, RuleItem.meets,
            Bool.or_left_comm]
      | other value => exact hitem.elim

theorem Rule.exists_ofPatterns? [Ignore.Library] (host : Host σ) (steady : σ → Prop)
    (verdict : Rule σ → Entry → Bool) (hengine : engine ≠ .ignore) (caseSensitive : Bool)
    (patterns : List String) :
    ∃ rules, Rule.ofPatterns? engine.name caseSensitive patterns = .ok rules ∧
      (rules = [] ↔ patterns = []) ∧
      ∀ entry, Answers steady (anyHolds host rules entry) (.ok (patterns.any fun text =>
        (RuleItem.pattern text).meets engine caseSensitive verdict entry)) := by
  unfold Rule.ofPatterns?
  cases hpatterns : patterns.isEmpty with
  | true =>
      rw [List.isEmpty_iff] at hpatterns
      subst hpatterns
      exact ⟨[], rfl, by simp, fun entry => .pure false⟩
  | false =>
      rw [List.isEmpty_eq_false_iff] at hpatterns
      obtain ⟨matcher, hmatcher, hkind, haccepts⟩ :=
        Matcher.exists_ofPatterns? hengine caseSensitive patterns
      refine ⟨[.matching matcher], ?_, by simp [hpatterns], fun entry => ?_⟩
      · rw [Engine.ofName?_name]
        show Except.bind (Matcher.ofPatterns? engine caseSensitive patterns) _ = _
        rw [hmatcher]
        rfl
      · have hanswers : Answers steady (anyHolds host [.matching matcher] entry) _ :=
          answers_anyHolds_matching hkind
        rw [haccepts] at hanswers
        exact hanswers

theorem Rule.answers_anyHolds_expressions (expressions : List Expression) (entry : Entry) :
    Answers steady (anyHolds host (ofExpressions expressions) entry)
      (.ok (expressions.any (·.accepts entry.relative))) := by
  cases expressions with
  | nil => exact .pure false
  | cons expression expressions => exact answers_anyHolds_matching rfl

theorem eq_nil_of_isPure (hitems : ∀ item ∈ items, item.IsPure host steady verdict)
    (hpatterns : items.filterMap RuleItem.pattern? = [])
    (hexpressions : items.filterMap RuleItem.expression? = [])
    (hrules : items.filterMap RuleItem.rule? = []) : items = [] := by
  cases items with
  | nil => rfl
  | cons item items =>
      cases item with
      | pattern _ => simp [RuleItem.pattern?] at hpatterns
      | regex _ => simp [RuleItem.expression?] at hexpressions
      | ready _ => simp [RuleItem.rule?] at hrules
      | other _ => exact (hitems _ List.mem_cons_self).elim

theorem Rule.exists_ofItems? [Ignore.Library] (hengine : engine ≠ .ignore) (caseSensitive : Bool)
    (hitems : ∀ item ∈ items, item.IsPure host steady verdict) :
    ∃ rules, Rule.ofItems? engine.name caseSensitive items = .ok rules ∧
      (rules = [] ↔ items = []) ∧
      ∀ entry, Answers steady (anyHolds host rules entry)
        (.ok (items.any (·.meets engine caseSensitive verdict entry))) := by
  have hrefused : items.findSome? RuleItem.refused? = none := by
    refine List.findSome?_eq_none_iff.2 fun item hitem => ?_
    cases item with
    | pattern _ | regex _ | ready _ => rfl
    | other value => exact (hitems _ hitem).elim
  have hready : ∀ rule ∈ items.filterMap RuleItem.rule?, ∀ entry,
      Answers steady (rule.holds host entry) (.ok (verdict rule entry)) := by
    intro rule hrule
    obtain ⟨item, hitem, hready⟩ := List.mem_filterMap.1 hrule
    cases item with
    | ready other =>
        obtain rfl : other = rule := Option.some.inj hready
        exact hitems _ hitem
    | pattern _ | regex _ | other _ => cases hready
  obtain ⟨fromPatterns, hpatterns, hnone, hanswers⟩ := exists_ofPatterns? host steady verdict
    hengine caseSensitive (items.filterMap RuleItem.pattern?)
  refine ⟨fromPatterns ++ ofExpressions (items.filterMap RuleItem.expression?) ++
    items.filterMap RuleItem.rule?, ?_, ?_, fun entry => ?_⟩
  · rw [ofItems?_eq, hrefused, hpatterns]
    rfl
  · constructor
    · intro hrules
      obtain ⟨hmatchers, hready⟩ := List.append_eq_nil_iff.1 hrules
      obtain ⟨hpatterns, hexpressions⟩ := List.append_eq_nil_iff.1 hmatchers
      exact eq_nil_of_isPure hitems (hnone.1 hpatterns) (ofExpressions_eq_nil_iff.1 hexpressions)
        hready
    · rintro rfl
      simpa [ofExpressions] using hnone
  · rw [any_meets_eq hitems]
    refine answers_anyHolds_append (answers_anyHolds_append (hanswers entry) ?_) ?_
    · exact answers_anyHolds_expressions _ entry
    · exact answers_anyHolds_of_forall fun rule hrule => hready rule hrule entry

end

/-! ## Rules that stand for items -/

/-- The rules say of each entry what the given items say of it, and there are rules as soon as there
are items. -/
structure Rule.Represents (host : Host σ) (steady : σ → Prop) (meets : Entry → RuleItem σ → Bool)
    (given : RuleItem σ → Prop) (rules : List (Rule σ)) : Prop where
  eq_nil_iff : rules = [] ↔ ∀ item, ¬ given item
  answers : ∀ entry, ∃ answer, Answers steady (anyHolds host rules entry) (.ok answer) ∧
    (answer = true ↔ ∃ item, given item ∧ meets entry item = true)

section

variable {host : Host σ} {steady : σ → Prop} {meets : Entry → RuleItem σ → Bool}
  {given others : RuleItem σ → Prop} {rules more : List (Rule σ)}

namespace Rule

theorem Represents.nil : Represents host steady meets (fun _ => False) [] where
  eq_nil_iff := by simp
  answers entry := ⟨false, .pure false, by simp⟩

theorem Represents.congr (h : Represents host steady meets given rules)
    (hsame : ∀ item, given item ↔ others item) : Represents host steady meets others rules := by
  obtain rfl : given = others := funext fun item => propext (hsame item)
  exact h

theorem Represents.append (h : Represents host steady meets given rules)
    (hmore : Represents host steady meets others more) :
    Represents host steady meets (fun item => given item ∨ others item) (rules ++ more) where
  eq_nil_iff := by
    simp only [List.append_eq_nil_iff, h.eq_nil_iff, hmore.eq_nil_iff, not_or, forall_and]
  answers entry := by
    obtain ⟨answer, hanswer, hiff⟩ := h.answers entry
    obtain ⟨other, hother, hiff'⟩ := hmore.answers entry
    refine ⟨answer || other, answers_anyHolds_append hanswer hother, ?_⟩
    simp only [Bool.or_eq_true, hiff, hiff', or_and_right, exists_or]

end Rule

namespace RuleSet

def of (rules : RuleSet σ) : Role → List (Rule σ)
  | .includes => rules.includes
  | .excludes => rules.excludes
  | .prunes => rules.prunes

theorem of_extend_self (rules : RuleSet σ) (more : List (Rule σ)) (role : Role) :
    (rules.extend more role).of role = rules.of role ++ more := by
  cases role with
  | includes | excludes | prunes => rfl

theorem of_extend_of_ne {role other : Role} (rules : RuleSet σ) (more : List (Rule σ))
    (h : other ≠ role) : (rules.extend more role).of other = rules.of other := by
  cases role with
  | includes | excludes | prunes =>
      cases other with
      | includes | excludes | prunes => first | rfl | exact absurd rfl h

/-- What the rules of each role stand for decides what is reported and what is entered. -/
theorem exists_answers {rules : RuleSet σ} {given : Role → RuleItem σ → Prop}
    (h : ∀ role, Rule.Represents host steady meets (given role) (rules.of role)) (entry : Entry) :
    ∃ accepted entered, Answers steady (rules.accepts host entry) (.ok accepted) ∧
      Answers steady (rules.mayDescend host entry) (.ok entered) ∧
      (accepted = true ↔
        ((∀ item, ¬ given .includes item) ∨
          ∃ item, given .includes item ∧ meets entry item = true) ∧
        ¬ ∃ item, given .excludes item ∧ meets entry item = true) ∧
      (entered = true ↔ ¬ ∃ item, given .prunes item ∧ meets entry item = true) := by
  obtain ⟨included, hincluded, hincludes⟩ := (h .includes).answers entry
  obtain ⟨excluded, hexcluded, hexcludes⟩ := (h .excludes).answers entry
  obtain ⟨pruned, hpruned, hprunes⟩ := (h .prunes).answers entry
  have hnone : rules.includes.isEmpty = true ↔ ∀ item, ¬ given .includes item :=
    List.isEmpty_iff.trans (h .includes).eq_nil_iff
  refine ⟨(rules.includes.isEmpty || included) && !excluded, !pruned, ?_, ?_, ?_, ?_⟩
  · have hkept : Answers steady (do return !(← Rule.anyHolds host rules.excludes entry))
        (.ok !excluded) := hexcluded.bind (.pure _)
    unfold accepts
    cases rules.includes.isEmpty with
    | true => exact hkept
    | false =>
        refine hincluded.bind ?_
        cases included with
        | true => exact hkept
        | false => exact .pure false
  · exact hpruned.bind (.pure _)
  · simp only [Bool.and_eq_true, Bool.or_eq_true, hnone, hincludes, ← hexcludes,
      Bool.not_eq_true', Bool.not_eq_true]
  · simp only [← hprunes, Bool.not_eq_true', Bool.not_eq_true]

end RuleSet

end

/-! ## Sequences of calls -/

namespace Selection

def addItems [Ignore.Library] (selection : Selection σ) (items : List (RuleItem σ)) :
    RuleSet.Role → Except Failure (Selection σ)
  | .includes => selection.includes items
  | .excludes => selection.excludes items
  | .prunes => selection.prunes items

theorem addItems_eq [Ignore.Library] (selection : Selection σ) (items : List (RuleItem σ))
    (role : RuleSet.Role) :
    selection.addItems items role =
      (selection.compile items).map fun rules => selection.extend rules role := by
  cases role with
  | includes | excludes | prunes => cases hcompile : selection.compile items with
    | error failure | ok rules =>
        simp only [addItems, includes, excludes, prunes, hcompile]
        rfl

def addCalls [Ignore.Library] (selection : Selection σ) :
    List (RuleSet.Role × List (RuleItem σ)) → Except Failure (Selection σ)
  | [] => .ok selection
  | (role, items) :: calls =>
      (selection.addItems items role).bind fun changed => changed.addCalls calls

/-- One of the calls gave the item for this role. -/
def Given (calls : List (RuleSet.Role × List (RuleItem σ))) (role : RuleSet.Role)
    (item : RuleItem σ) : Prop :=
  ∃ items, (role, items) ∈ calls ∧ item ∈ items

@[simp]
theorem given_nil {role : RuleSet.Role} {item : RuleItem σ} : ¬ Given [] role item := by
  simp [Given]

theorem given_cons_iff {role other : RuleSet.Role} {items : List (RuleItem σ)}
    {calls : List (RuleSet.Role × List (RuleItem σ))} {item : RuleItem σ} :
    Given ((role, items) :: calls) other item ↔
      (other = role ∧ item ∈ items) ∨ Given calls other item := by
  simp only [Given, List.mem_cons, Prod.mk.injEq, or_and_right, exists_or]
  refine or_congr_left ⟨?_, ?_⟩
  · rintro ⟨_, ⟨rfl, rfl⟩, hitem⟩
    exact ⟨rfl, hitem⟩
  · rintro ⟨rfl, hitem⟩
    exact ⟨items, ⟨rfl, rfl⟩, hitem⟩

def fresh (directory : Path) (engine : Engine) (choice : Choice) : Selection σ :=
  ⟨directory, engine, choice.caseSensitive, choice.strict, choice.followLinks, choice.basepath,
    .empty⟩

def firstCalls (included excluded : Option (RuleItem σ)) :
    List (RuleSet.Role × List (RuleItem σ)) :=
  [(.includes, firstItems included), (.excludes, firstItems excluded)]

theorem make_bind_addCalls [Ignore.Library] (host : Host σ) (directory : String) (choice : Choice)
    (included excluded : Option (RuleItem σ)) (calls : List (RuleSet.Role × List (RuleItem σ))) :
    (do
      let made ← make host directory choice included excluded
      Act.ofExcept (made.addCalls calls)) =
    (do
      let path ← checkDirectory host directory
      let engine ← Act.ofExcept (Engine.ofName? choice.engine)
      Act.ofExcept
        ((fresh path engine choice).addCalls (firstCalls included excluded ++ calls))) := by
  unfold make
  rw [bind_assoc]
  refine bind_congr fun path => ?_
  rw [bind_assoc]
  refine bind_congr fun engine => ?_
  simp only [firstCalls, List.cons_append, List.nil_append, addCalls, ofExcept_bind, addItems,
    bind_assoc]
  rfl

section

variable {host : Host σ} {steady : σ → Prop} {verdict : Rule σ → Entry → Bool}
  {selection : Selection σ}

theorem exists_addItems [Ignore.Library] (hengine : selection.engine ≠ .ignore)
    {items : List (RuleItem σ)} (hitems : ∀ item ∈ items, item.IsPure host steady verdict)
    (role : RuleSet.Role) :
    ∃ rules, selection.addItems items role = .ok (selection.extend rules role) ∧
      Rule.Represents host steady
        (RuleItem.meets selection.engine selection.caseSensitive verdict) (· ∈ items) rules := by
  obtain ⟨rules, hcompile, hnil, hanswers⟩ :=
    Rule.exists_ofItems? hengine selection.caseSensitive hitems
  refine ⟨rules, ?_, ?_, fun entry => ⟨_, hanswers entry, ?_⟩⟩
  · rw [addItems_eq, compile, hcompile]
    rfl
  · rw [hnil, List.eq_nil_iff_forall_not_mem]
  · exact List.any_eq_true

theorem exists_addCalls [Ignore.Library] (hengine : selection.engine ≠ .ignore)
    {calls : List (RuleSet.Role × List (RuleItem σ))}
    (hcalls : ∀ role item, Given calls role item → item.IsPure host steady verdict)
    {past : RuleSet.Role → RuleItem σ → Prop}
    (hpast : ∀ role, Rule.Represents host steady
      (RuleItem.meets selection.engine selection.caseSensitive verdict) (past role)
        (selection.rules.of role)) :
    ∃ configured, selection.addCalls calls = .ok configured ∧
      ∀ role, Rule.Represents host steady
        (RuleItem.meets selection.engine selection.caseSensitive verdict)
          (fun item => past role item ∨ Given calls role item) (configured.rules.of role) := by
  induction calls generalizing selection past with
  | nil => exact ⟨selection, rfl, fun role => (hpast role).congr (by simp [Given])⟩
  | cons call calls ih =>
      obtain ⟨role, items⟩ := call
      have hitems : ∀ item ∈ items, item.IsPure host steady verdict :=
        fun item hitem => hcalls role item (given_cons_iff.2 (.inl ⟨rfl, hitem⟩))
      have hlater : ∀ other item, Given calls other item → item.IsPure host steady verdict :=
        fun other item hitem => hcalls other item (given_cons_iff.2 (.inr hitem))
      obtain ⟨rules, hadd, hrules⟩ := exists_addItems hengine hitems role
      have hnow : ∀ other, Rule.Represents host steady
          (RuleItem.meets selection.engine selection.caseSensitive verdict)
            (fun item => past other item ∨ other = role ∧ item ∈ items)
              ((selection.extend rules role).rules.of other) := by
        intro other
        by_cases hother : other = role
        · subst hother
          have happend := (hpast other).append hrules
          rw [← RuleSet.of_extend_self] at happend
          exact happend.congr (by simp)
        · have hsame := hpast other
          rw [← RuleSet.of_extend_of_ne _ rules hother] at hsame
          exact hsame.congr (by simp [hother])
      have hengine' : (selection.extend rules role).engine ≠ .ignore := hengine
      obtain ⟨configured, hconfigured, hrepresents⟩ := ih hengine' hlater hnow
      refine ⟨configured, ?_, fun other => (hrepresents other).congr fun item => ?_⟩
      · rw [addCalls, hadd]
        exact hconfigured
      · rw [given_cons_iff, or_assoc]

end

/-- The decisions of a selection of globs or segmented patterns depend on nothing but which items
were given for what: an entry is reported if one of the included items meets it, or there is none,
and none of the excluded ones does, and it is entered unless an item against that meets it.  Neither
the calls nor the order or number of the items matter, nor whether they came when the selection was
made. -/
theorem grouping_of_items_is_irrelevant [Ignore.Library] (host : Host σ) (steady : σ → Prop)
    (verdict : Rule σ → Entry → Bool) :
    (∀ directory choice included excluded calls,
      (do
        let made ← make host directory choice included excluded
        Act.ofExcept (made.addCalls calls)) =
      (do
        let path ← checkDirectory host directory
        let engine ← Act.ofExcept (Engine.ofName? choice.engine)
        Act.ofExcept
          ((fresh path engine choice).addCalls (firstCalls included excluded ++ calls)))) ∧
    ∀ (selection : Selection σ) (calls : List (RuleSet.Role × List (RuleItem σ))),
      selection.rules = .empty → selection.engine ≠ .ignore →
        (∀ role item, Given calls role item → item.IsPure host steady verdict) →
          let meets := RuleItem.meets selection.engine selection.caseSensitive verdict
          ∃ configured, selection.addCalls calls = .ok configured ∧
            ∀ entry, ∃ accepted entered,
              Answers steady (configured.accepts host entry) (.ok accepted) ∧
              Answers steady (configured.mayDescend host entry) (.ok entered) ∧
              (accepted = true ↔
                ((∀ item, ¬ Given calls .includes item) ∨
                  ∃ item, Given calls .includes item ∧ meets entry item = true) ∧
                ¬ ∃ item, Given calls .excludes item ∧ meets entry item = true) ∧
              (entered = true ↔ ¬ ∃ item, Given calls .prunes item ∧ meets entry item = true) ∧
              ∀ others, (∀ role item, Given others role item ↔ Given calls role item) →
                ∃ other, selection.addCalls others = .ok other ∧
                  Answers steady (other.accepts host entry) (.ok accepted) ∧
                  Answers steady (other.mayDescend host entry) (.ok entered) := by
  refine ⟨make_bind_addCalls host, ?_⟩
  intro selection calls hempty hengine hcalls meets
  have hconfigured {others : List (RuleSet.Role × List (RuleItem σ))}
      (hsame : ∀ role item, Given others role item ↔ Given calls role item) :
      ∃ configured, selection.addCalls others = .ok configured ∧
        ∀ role,
          Rule.Represents host steady meets (Given calls role) (configured.rules.of role) := by
    have hnone : ∀ role, Rule.Represents host steady meets (fun _ => False)
        (selection.rules.of role) := by
      intro role
      rw [hempty]
      cases role with
      | includes | excludes | prunes => exact .nil
    obtain ⟨configured, hconfigured, hrepresents⟩ := exists_addCalls hengine
      (fun role item hitem => hcalls role item ((hsame role item).1 hitem)) hnone
    exact ⟨configured, hconfigured, fun role => (hrepresents role).congr (by simp [hsame])⟩
  obtain ⟨configured, hcalled, hrepresents⟩ := hconfigured fun _ _ => Iff.rfl
  refine ⟨configured, hcalled, fun entry => ?_⟩
  obtain ⟨accepted, entered, haccepts, hdescends, haccepted, hentered⟩ :=
    RuleSet.exists_answers hrepresents entry
  refine ⟨accepted, entered, haccepts, hdescends, haccepted, hentered, fun others hsame => ?_⟩
  obtain ⟨other, hother, hrepresents'⟩ := hconfigured hsame
  obtain ⟨accepted', entered', haccepts', hdescends', haccepted', hentered'⟩ :=
    RuleSet.exists_answers hrepresents' entry
  obtain rfl : accepted = accepted' := Bool.eq_iff_iff.2 (haccepted.trans haccepted'.symm)
  obtain rfl : entered = entered' := Bool.eq_iff_iff.2 (hentered.trans hentered'.symm)
  exact ⟨other, hother, haccepts', hdescends'⟩

/-! ## Two groupings -/

def segmentedSelection : Selection (Session Unit) :=
  fresh ⟨"/", []⟩ .segmented {}

def groupedCalls : List (RuleSet.Role × List (RuleItem (Session Unit))) :=
  [(.includes, [.pattern "a", .ready (.kind .everything)]), (.excludes, [.pattern "b"])]

def scatteredCalls : List (RuleSet.Role × List (RuleItem (Session Unit))) :=
  [(.excludes, [.pattern "b", .pattern "b"]), (.includes, [.ready (.kind .everything)]),
    (.includes, []), (.includes, [.pattern "a"])]

theorem two_groupings_agree :
    ∃ grouped scattered, segmentedSelection.addCalls groupedCalls = .ok grouped ∧
      segmentedSelection.addCalls scatteredCalls = .ok scattered ∧
      Answers (fun _ => True) (grouped.accepts Session.host ⟨⟨"/", ["a"]⟩, "a"⟩) (.ok true) ∧
      Answers (fun _ => True) (scattered.accepts Session.host ⟨⟨"/", ["a"]⟩, "a"⟩) (.ok true) := by
  have hpure : ∀ role item, Given groupedCalls role item →
      item.IsPure Session.host (fun _ => True) fun _ _ => true := by
    rintro role item ⟨items, hcall, hitem⟩
    simp only [groupedCalls, List.mem_cons, List.not_mem_nil, or_false, Prod.mk.injEq] at hcall
    obtain ⟨-, rfl⟩ | ⟨-, rfl⟩ := hcall
    · simp only [List.mem_cons, List.not_mem_nil, or_false] at hitem
      obtain rfl | rfl := hitem
      · trivial
      · exact fun entry => .pure true
    · obtain rfl := List.mem_singleton.1 hitem
      trivial
  have hsame : ∀ role item, Given scatteredCalls role item ↔ Given groupedCalls role item := by
    intro role item
    cases role with
    | includes | excludes | prunes =>
        simp [scatteredCalls, groupedCalls, given_cons_iff, or_comm]
  obtain ⟨grouped, hgrouped, hdecides⟩ := (grouping_of_items_is_irrelevant Session.host
    (fun _ => True) fun _ _ => true).2 segmentedSelection groupedCalls rfl (by decide) hpure
  obtain ⟨accepted, entered, haccepts, -, haccepted, -, hregroup⟩ := hdecides ⟨⟨"/", ["a"]⟩, "a"⟩
  obtain ⟨scattered, hscattered, haccepts', -⟩ := hregroup scatteredCalls hsame
  obtain rfl : accepted = true := by
    refine haccepted.2 ⟨.inr ⟨.ready (.kind .everything), ?_, rfl⟩, ?_⟩
    · exact given_cons_iff.2 (.inl ⟨rfl, by simp⟩)
    · rintro ⟨item, hitem, hmeets⟩
      obtain rfl : item = .pattern "b" := by
        simpa [groupedCalls, given_cons_iff] using hitem
      revert hmeets
      decide
  exact ⟨grouped, scattered, hgrouped, hscattered, haccepts, haccepts'⟩

end Selection

end FileSelection
