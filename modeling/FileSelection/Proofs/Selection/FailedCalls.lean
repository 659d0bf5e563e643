import FileSelection.Proofs.Ignore.Standard
import FileSelection.Proofs.Selection.Grouping
import FileSelection.Proofs.Sequence.Settings

/-!
# Calls that fail

The calls that add rules change one selection in place.  A call works its rules out before it comes
to its change, so that a call that fails leaves the selection as if the call had not been made.
-/

namespace FileSelection

open Act Failure

variable {σ : Type}

theorem Failure.map_eq_error_iff {α β : Type} {change : α → β} {result : Except Failure α}
    {failure : Failure} : result.map change = .error failure ↔ result = .error failure := by
  cases result with
  | ok value => simp [Except.map]
  | error other => simp [Except.map]

def Act.current {β : Type} : Act (β × σ) β := fun (gathered, state) =>
  some (.ok gathered, gathered, state)

theorem Act.current_bind_apply {α β : Type} (next : β → Act (β × σ) α) (gathered : β) (state : σ) :
    (current >>= next) (gathered, state) = next gathered (gathered, state) :=
  bind_of_ok rfl

def RuleItem.FirstOther (items : List (RuleItem σ)) (value : Value) : Prop :=
  ∃ before after, items = before ++ .other value :: after ∧ ∀ item ∈ before, item.refused? = none

theorem RuleItem.refused?_eq_some_iff {item : RuleItem σ} {value : Value} :
    item.refused? = some value ↔ item = .other value := by
  cases item with
  | pattern _ | regex _ | ready _ | other _ => simp [refused?]

theorem RuleItem.findSome?_refused?_iff {items : List (RuleItem σ)} {value : Value} :
    items.findSome? refused? = some value ↔ FirstOther items value := by
  simp only [List.findSome?_eq_some_iff, refused?_eq_some_iff, FirstOther]
  constructor
  · rintro ⟨before, _, after, rfl, rfl, hbefore⟩
    exact ⟨before, after, rfl, hbefore⟩
  · rintro ⟨before, after, rfl, hbefore⟩
    exact ⟨before, _, after, rfl, rfl, hbefore⟩

theorem Selection.extend_nil (selection : Selection σ) (role : RuleSet.Role) :
    selection.extend [] role = selection := by
  cases role with
  | includes | excludes | prunes => simp [extend, RuleSet.extend]

section

variable [Ignore.Library]

/-! ## What makes a call fail -/

section

variable {failure : Failure}

theorem Matcher.ofPatterns?_eq_error_iff {engine : Engine} {caseSensitive : Bool}
    {patterns : List String} :
    ofPatterns? engine caseSensitive patterns = .error failure ↔
      engine = .ignore ∧ Ignore.Library.compile? patterns = .error failure := by
  by_cases hengine : engine = .ignore
  · subst hengine
    rw [and_iff_right rfl]
    exact map_eq_error_iff
  · obtain ⟨matcher, hmatcher, -⟩ := exists_ofPatterns? hengine caseSensitive patterns
    simp [hmatcher, hengine]

theorem Rule.ofPatterns?_eq_error_iff {engine : Engine} {caseSensitive : Bool}
    {patterns : List String} :
    ofPatterns? (σ := σ) engine.name caseSensitive patterns = .error failure ↔
      engine = .ignore ∧ Ignore.Faulty patterns failure := by
  cases patterns with
  | nil => exact ⟨nofun, fun h => absurd rfl h.2.1⟩
  | cons pattern patterns =>
      rw [ofPatterns?, Engine.ofName?_name, Ignore.Faulty,
        and_iff_right (List.cons_ne_nil pattern patterns)]
      exact map_eq_error_iff.trans Matcher.ofPatterns?_eq_error_iff

inductive Selection.Refuses (selection : Selection σ) (items : List (RuleItem σ)) : Failure → Prop
  | item {value : Value} : RuleItem.FirstOther items value →
      Refuses selection items (if value.isShown then .notAPattern value.shown else .longValue)
  | line {failure : Failure} : (∀ item ∈ items, item.refused? = none) →
      selection.engine = .ignore →
        Ignore.Faulty (items.filterMap RuleItem.pattern?) failure →
          Refuses selection items failure

theorem Selection.compile_eq_error_iff {selection : Selection σ} {items : List (RuleItem σ)} :
    selection.compile items = .error failure ↔ selection.Refuses items failure := by
  rw [compile, Rule.ofItems?_eq]
  cases hrefused : items.findSome? RuleItem.refused? with
  | some value =>
      have hfirst := RuleItem.findSome?_refused?_iff.1 hrefused
      constructor
      · rintro ⟨⟩
        exact .item hfirst
      · rintro (hother | ⟨hnone, -, -⟩)
        · obtain rfl := Option.some.inj
            (hrefused.symm.trans (RuleItem.findSome?_refused?_iff.2 hother))
          rfl
        · cases hrefused.symm.trans (List.findSome?_eq_none_iff.2 hnone)
  | none =>
      refine map_eq_error_iff.trans (Rule.ofPatterns?_eq_error_iff.trans ?_)
      constructor
      · rintro ⟨hengine, hfault⟩
        exact .line (List.findSome?_eq_none_iff.1 hrefused) hengine hfault
      · rintro (hother | ⟨-, hengine, hfault⟩)
        · cases hrefused.symm.trans (RuleItem.findSome?_refused?_iff.2 hother)
        · exact ⟨hengine, hfault⟩

namespace IgnoreFile

def rulesIn : Except Failure ByteArray → Except Failure (Option Ignore.Rules)
  | .error failure => if failure.isSystem then .ok none else .error failure
  | .ok content =>
      match decode? content with
      | none => .ok none
      | some text =>
          if (ruleLines text).isEmpty then .ok none
          else (Ignore.Library.compile? (ruleLines text)).map some

theorem rulesOf_eq (host : Host σ) (file : Path) : rulesOf host file =
    (host.read file).attempt >>= fun read => Act.ofExcept (rulesIn read) := by
  rw [rulesOf, linesOf, bind_assoc]
  refine bind_congr fun read => ?_
  cases read with
  | error failure =>
      simp only [rulesIn]
      split
      · rfl
      · rfl
  | ok content =>
      simp only [rulesIn]
      cases decode? content with
      | none => rfl
      | some text =>
          dsimp only
          generalize ruleLines text = lines
          cases lines with
          | nil => rfl
          | cons line lines =>
              simp only [List.isEmpty_cons, Bool.false_eq_true, if_false, pure_bind]
              cases Ignore.Library.compile? (line :: lines) with
              | error failure | ok rules => rfl

inductive Refuses : Except Failure ByteArray → Failure → Prop
  | unread {failure : Failure} : failure.isSystem = false → Refuses (.error failure) failure
  | line {content : ByteArray} {text : List Char} {failure : Failure} :
      decode? content = some text → Ignore.Faulty (ruleLines text) failure →
        Refuses (.ok content) failure

theorem rulesIn_eq_error_iff {read : Except Failure ByteArray} :
    rulesIn read = .error failure ↔ Refuses read failure := by
  cases read with
  | error cause =>
      cases hsystem : cause.isSystem with
      | true =>
          simp only [rulesIn, hsystem, if_true]
          exact ⟨nofun, fun | .unread hother => nomatch hsystem.symm.trans hother⟩
      | false =>
          simp only [rulesIn, hsystem, Bool.false_eq_true, if_false, Except.error.injEq]
          exact ⟨fun | rfl => .unread hsystem, fun | .unread _ => rfl⟩
  | ok content =>
      rw [rulesIn]
      cases hdecode : decode? content with
      | none => exact ⟨nofun, fun | .line hother _ => nomatch hdecode.symm.trans hother⟩
      | some text =>
          have hfault : Refuses (.ok content) failure ↔
              Ignore.Faulty (ruleLines text) failure := by
            refine ⟨?_, .line hdecode⟩
            rintro (_ | ⟨hother, hfault⟩)
            obtain rfl := Option.some.inj (hdecode.symm.trans hother)
            exact hfault
          rw [hfault]
          dsimp only
          generalize ruleLines text = lines
          cases lines with
          | nil => exact ⟨nofun, fun h => absurd rfl h.1⟩
          | cons line lines =>
              rw [Ignore.Faulty, and_iff_right (List.cons_ne_nil line lines)]
              exact map_eq_error_iff

theorem rulesOf_eq_error_iff {host : Host σ} {file : Path} {state last : σ} :
    rulesOf host file state = some (.error failure, last) ↔
      ∃ read, host.read file state = some (read, last) ∧ Refuses read failure := by
  have hrules : rulesOf host file state =
      (host.read file state).map fun (read, last) => (rulesIn read, last) := by
    rw [rulesOf_eq, bind_apply, attempt]
    cases host.read file state with
    | none => rfl
    | some outcome =>
        obtain ⟨read, last⟩ := outcome
        exact ofExcept_apply _ _
  rw [hrules, Option.map_eq_some_iff]
  simp only [Prod.exists, Prod.mk.injEq, rulesIn_eq_error_iff]
  constructor
  · rintro ⟨read, _, hread, hrefused, rfl⟩
    exact ⟨read, hread, hrefused⟩
  · rintro ⟨read, hread, hrefused⟩
    exact ⟨read, last, hread, hrefused, rfl⟩

end IgnoreFile

end

/-! ## Calls on one selection -/

def RuleSet.extendAll (rules : RuleSet σ) (added : List (RuleSet.Role × List (Rule σ))) :
    RuleSet σ :=
  added.foldl (fun rules (role, more) => rules.extend more role) rules

namespace Selection

def addInPlace (items : List (RuleItem σ)) (role : RuleSet.Role) : Act (Selection σ × σ) Unit := do
  let rules ← Act.ofExcept ((← Act.current).compile items)
  Act.gather (·.extend rules role)

namespace Change

def role? : Change σ → Option RuleSet.Role
  | .includes _ => some .includes
  | .prunes _ => some .prunes
  | .excludes _ | .excludesFrom _ | .filesOnly | .directoriesOnly => some .excludes
  | .basepath _ => none

def perform (host : Host σ) : Change σ → Act (Selection σ × σ) Unit
  | .includes items => addInPlace items .includes
  | .excludes items => addInPlace items .excludes
  | .prunes items => addInPlace items .prunes
  | .excludesFrom file => do
      match ← (IgnoreFile.rulesOf host file).beside with
      | none => pure ()
      | some rules => Act.gather (·.exclude (.matching (.ignore rules)))
  | .basepath text => Act.gather (·.withBasepath text)
  | .filesOnly => Act.gather (·.filesOnly)
  | .directoriesOnly => Act.gather (·.directoriesOnly)

end Change

section

variable {host : Host σ} {selection following : Selection σ} {state last : σ} {change : Change σ}
  {failure : Failure}

theorem addInPlace_apply (items : List (RuleItem σ)) (role : RuleSet.Role) :
    addInPlace items role (selection, state) =
      ((Act.ofExcept (selection.addItems items role)).beside >>= fun changed =>
        Act.gather fun _ => changed) (selection, state) := by
  rw [addInPlace, current_bind_apply, addItems_eq]
  cases selection.compile items with
  | error failure | ok rules => rfl

theorem Change.perform_apply : change.perform host (selection, state) =
    ((selection.change host change).beside >>= fun changed =>
      Act.gather fun _ => changed) (selection, state) := by
  cases change with
  | includes items | excludes items | prunes items => exact addInPlace_apply items _
  | excludesFrom file =>
      simp only [perform, Selection.change, Selection.excludesFrom, bind_apply, beside]
      cases IgnoreFile.rulesOf host file state with
      | none => rfl
      | some outcome =>
          obtain ⟨result, last⟩ := outcome
          cases result with
          | error failure => rfl
          | ok found =>
              cases found with
              | none | some rules => rfl
  | basepath text | filesOnly | directoriesOnly => rfl

theorem Change.perform_eq_error_iff :
    change.perform host (selection, state) = some (.error failure, following, last) ↔
      selection.change host change state = some (.error failure, last) ∧ following = selection := by
  rw [perform_apply, beside_bind_eq_some_iff]
  constructor
  · rintro (⟨_, _, -, ⟨⟩⟩ | ⟨_, _, hchange, ⟨⟩⟩)
    exact ⟨hchange, rfl⟩
  · rintro ⟨hchange, rfl⟩
    exact .inr ⟨failure, last, hchange, rfl⟩

theorem Change.perform_eq_ok_iff :
    change.perform host (selection, state) = some (.ok (), following, last) ↔
      selection.change host change state = some (.ok following, last) := by
  rw [perform_apply, beside_bind_eq_some_iff]
  constructor
  · rintro (⟨_, _, hchange, ⟨⟩⟩ | ⟨_, _, -, ⟨⟩⟩)
    exact hchange
  · intro hchange
    exact .inl ⟨following, last, hchange, rfl⟩

def FailsWith (host : Host σ) (selection : Selection σ) (state : σ) (failure : Failure) (last : σ) :
    Change σ → Prop
  | .includes items | .excludes items | .prunes items =>
      selection.Refuses items failure ∧ last = state
  | .excludesFrom file =>
      ∃ read, host.read file state = some (read, last) ∧ IgnoreFile.Refuses read failure
  | .basepath _ | .filesOnly | .directoriesOnly => False

theorem ofExcept_addItems_eq_error_iff (items : List (RuleItem σ)) (role : RuleSet.Role) :
    Act.ofExcept (selection.addItems items role) state = some (.error failure, last) ↔
      selection.Refuses items failure ∧ last = state := by
  rw [ofExcept_apply, Option.some.injEq, Prod.mk.injEq, addItems_eq, map_eq_error_iff,
    compile_eq_error_iff, eq_comm]

theorem excludesFrom_eq_error_iff {file : Path} :
    selection.excludesFrom host file state = some (.error failure, last) ↔
      IgnoreFile.rulesOf host file state = some (.error failure, last) := by
  refine ⟨fun h => ?_, bind_of_error⟩
  obtain ⟨found, _, -, hrest⟩ | ⟨_, _, hrules, ⟨⟩⟩ := bind_eq_some_iff.1 h
  · cases found with
    | none | some rules => cases hrest
  · exact hrules

theorem change_eq_error_iff :
    selection.change host change state = some (.error failure, last) ↔
      FailsWith host selection state failure last change := by
  cases change with
  | includes items => exact ofExcept_addItems_eq_error_iff items .includes
  | excludes items => exact ofExcept_addItems_eq_error_iff items .excludes
  | prunes items => exact ofExcept_addItems_eq_error_iff items .prunes
  | excludesFrom file => exact excludesFrom_eq_error_iff.trans IgnoreFile.rulesOf_eq_error_iff
  | basepath text | filesOnly | directoriesOnly => exact ⟨nofun, nofun⟩

theorem extended_of_ofExcept_addItems {items : List (RuleItem σ)} {role : RuleSet.Role}
    (h : Act.ofExcept (selection.addItems items role) state = some (.ok following, last)) :
    ∃ rules, following = selection.extend rules role := by
  rw [ofExcept_apply, addItems_eq] at h
  cases hcompile : selection.compile items with
  | error failure =>
      rw [hcompile] at h
      cases h
  | ok rules =>
      rw [hcompile] at h
      cases h
      exact ⟨rules, rfl⟩

theorem extended_of_change {role : RuleSet.Role} (hrole : change.role? = some role)
    (h : selection.change host change state = some (.ok following, last)) :
    ∃ rules, following = selection.extend rules role := by
  cases change with
  | includes items | excludes items | prunes items =>
      cases hrole
      exact extended_of_ofExcept_addItems h
  | excludesFrom file =>
      cases hrole
      obtain ⟨found, _, -, hrest⟩ := bind_eq_ok_iff.1 h
      cases found with
      | none =>
          cases hrest
          exact ⟨[], (extend_nil selection .excludes).symm⟩
      | some rules =>
          cases hrest
          exact ⟨_, rfl⟩
  | filesOnly | directoriesOnly =>
      cases hrole
      cases h
      exact ⟨_, rfl⟩
  | basepath text => cases hrole

theorem rules_of_change (hrole : change.role? = none)
    (h : selection.change host change state = some (.ok following, last)) :
    following.rules = selection.rules := by
  cases change with
  | basepath text =>
      cases h
      rfl
  | includes _ | excludes _ | prunes _ | excludesFrom _ | filesOnly | directoriesOnly => cases hrole

end

/-! ## Histories of calls -/

structure Made (σ : Type) where
  call : Change σ
  state : σ
  result : Except Failure Unit

def Made.succeeded (made : Made σ) : Bool := made.result.isOk

def Made.role? (made : Made σ) : Option RuleSet.Role := made.call.role?

/-- The calls were made on one selection in turn, also after one that failed.  Between two calls the
state may change in any way. -/
inductive History (host : Host σ) : Selection σ → List (Made σ) → Selection σ → Prop
  | nil (selection : Selection σ) : History host selection [] selection
  | cons {selection middle final : Selection σ} {call : Change σ} {state last : σ}
      {result : Except Failure Unit} {history : List (Made σ)} :
      call.perform host (selection, state) = some (result, middle, last) →
        History host middle history final →
          History host selection (⟨call, state, result⟩ :: history) final

namespace History

variable {host : Host σ} {selection final : Selection σ} {history : List (Made σ)}

theorem without_failed (h : History host selection history final) {fewer : List (Made σ)}
    (hfewer : fewer.Sublist history)
    (hkept : fewer.filter Made.succeeded = history.filter Made.succeeded) :
    History host selection fewer final := by
  induction h generalizing fewer with
  | nil selection =>
      obtain rfl := List.sublist_nil.1 hfewer
      exact .nil selection
  | @cons selection middle final call state last result history hcall _ ih =>
      cases hfewer with
      | cons _ hfewer =>
          cases result with
          | error failure =>
              obtain rfl := (Change.perform_eq_error_iff.1 hcall).2
              exact ih hfewer hkept
          | ok _ =>
              have hlength := congrArg List.length hkept
              have hle := (hfewer.filter Made.succeeded).length_le
              rw [List.filter_cons_of_pos rfl, List.length_cons] at hlength
              omega
      | cons_cons _ hfewer =>
          refine .cons hcall (ih hfewer ?_)
          cases result with
          | error failure => exact hkept
          | ok _ => exact (List.cons.inj hkept).2

theorem exists_added (h : History host selection history final) :
    ∃ added, added.map Prod.fst = (history.filter Made.succeeded).filterMap Made.role? ∧
      final.rules = selection.rules.extendAll added := by
  induction h with
  | nil selection => exact ⟨[], rfl, rfl⟩
  | @cons selection middle final call state last result history hcall _ ih =>
      obtain ⟨added, hroles, hfinal⟩ := ih
      cases result with
      | error failure =>
          obtain rfl := (Change.perform_eq_error_iff.1 hcall).2
          exact ⟨added, hroles, hfinal⟩
      | ok value =>
          have hchange := Change.perform_eq_ok_iff.1 hcall
          cases hrole : Made.role? ⟨call, state, .ok value⟩ with
          | none =>
              rw [rules_of_change hrole hchange] at hfinal
              refine ⟨added, ?_, hfinal⟩
              rw [List.filter_cons_of_pos rfl, List.filterMap_cons_none hrole, hroles]
          | some role =>
              obtain ⟨rules, rfl⟩ := extended_of_change hrole hchange
              refine ⟨(role, rules) :: added, ?_, hfinal⟩
              rw [List.filter_cons_of_pos rfl, List.filterMap_cons_some hrole, ← hroles]
              rfl

end History

/-- A call that fails leaves the selection as it was, and there is a value or a line to blame for
it; a call that succeeds does no more than add rules for what it is about.  In the end the selection
is as if all or some of the calls that failed had not been made.  If ignore rules are read line by
line, the line to blame is the first one that cannot be read. -/
theorem failed_calls_change_nothing (host : Host σ) :
    (∀ (change : Change σ) selection state failure following last,
      (change.perform host (selection, state) = some (.error failure, following, last) ↔
        selection.change host change state = some (.error failure, last) ∧ following = selection) ∧
      (selection.change host change state = some (.error failure, last) ↔
        FailsWith host selection state failure last change)) ∧
    (∀ (change : Change σ) selection state following last,
      (change.perform host (selection, state) = some (.ok (), following, last) ↔
        selection.change host change state = some (.ok following, last)) ∧
      ∀ role, change.role? = some role →
        selection.change host change state = some (.ok following, last) →
          ∃ rules, following = selection.extend rules role) ∧
    (∀ selection history final, History host selection history final →
      (∀ fewer : List (Made σ), fewer.Sublist history →
        fewer.filter Made.succeeded = history.filter Made.succeeded →
          History host selection fewer final) ∧
      ∃ added, added.map Prod.fst = (history.filter Made.succeeded).filterMap Made.role? ∧
        final.rules = selection.rules.extendAll added) ∧
    (Ignore.Library.ReadsByLine → ∀ lines failure,
      Ignore.Faulty lines failure ↔ Ignore.FirstFault lines failure) := by
  refine ⟨?_, ?_, fun selection history final h => ⟨fun _ => h.without_failed, h.exists_added⟩,
    fun hreads lines failure => hreads.faulty_iff⟩
  · intro change selection state failure following last
    exact ⟨Change.perform_eq_error_iff, change_eq_error_iff⟩
  · intro change selection state following last
    exact ⟨Change.perform_eq_ok_iff, fun role => extended_of_change⟩

end Selection

end

namespace Selection

/-! ## A history with failures -/

def ignoringSelection : Selection (Session Unit) :=
  fresh ⟨"/", []⟩ .ignore {}

def emptySession : Session Unit :=
  .ofFiles ⟨.directory [], []⟩ ()

def mixedHistory : List (Made (Session Unit)) :=
  [⟨.includes [.ready (.kind .isFile)], emptySession, .ok ()⟩,
    ⟨.excludes [.ready (.kind .everything), .other (.list []), .pattern "a"], emptySession,
      .error (.notAPattern "[]")⟩,
    ⟨.prunes [.ready (.kind .everything), .pattern "", .pattern "!"], emptySession,
      .error (.badIgnoreLine "!")⟩,
    ⟨.excludesFrom ⟨"/", ["\x00"]⟩, emptySession, .error .nulInPath⟩,
    ⟨.prunes [.ready (.kind .isDirectory)], emptySession, .ok ()⟩]

theorem mixed_history_without_failures :
    ∃ final, History Session.host ignoringSelection mixedHistory final ∧
      History Session.host ignoringSelection
        [⟨.includes [.ready (.kind .isFile)], emptySession, .ok ()⟩,
          ⟨.prunes [.ready (.kind .isDirectory)], emptySession, .ok ()⟩] final ∧
      final.rules = ⟨[.kind .isFile], [], [.kind .isDirectory]⟩ ∧
      Ignore.FirstFault ["", "!"] (.badIgnoreLine "!") := by
  have hincludes : Change.perform Session.host (.includes [.ready (.kind .isFile)])
      (ignoringSelection, emptySession) =
        some (.ok (), ignoringSelection.extend [.kind .isFile] .includes, emptySession) := rfl
  have hhistory : History Session.host ignoringSelection mixedHistory
      ((ignoringSelection.extend [.kind .isFile] .includes).extend [.kind .isDirectory] .prunes) :=
    .cons hincludes (.cons rfl (.cons rfl (.cons rfl (.cons rfl (.nil _)))))
  obtain ⟨-, -, hhistories, hblamed⟩ := failed_calls_change_nothing (Session.host (τ := Unit))
  refine ⟨_, hhistory, (hhistories _ _ _ hhistory).1 _ ?_ rfl, rfl, ?_⟩
  · exact .cons_cons _ (.cons _ (.cons _ (.cons _ (.cons_cons _ .slnil))))
  · exact (hblamed Ignore.Standard.readsByLine _ _).1 ⟨by decide, rfl⟩

end Selection

end FileSelection
