import ChainQuery.Editor
import ChainQuery.Proofs.Query.Judgement
import Mathlib.Data.List.DropRight

/-!
# The history of an editor

An editor is driven by what happens to it, and every action answers, sometimes with a failure. This
file says what an editor holds after **any** actions at all, whatever they answered.

| what the editor holds | what it depends on |
|---|---|
| the input | the last action that typed something, and for an accepted word the input before it |
| the suggestions, the diagnostic | the input alone |
| the outcomes | the responses that arrived since the outcomes were last forgotten |

Two of these columns never meet: what types leaves the outcomes alone, and what records or forgets
outcomes leaves the input alone, with all that follows from it (`ChainQuery.Editor.Step`). So the
editor can be described part by part, and it has no memory but the one in the table
(`ChainQuery.Editor.reflects_run`). Only an editor in which nothing has ever been typed is an
exception, since it has no suggestions, not even those for the empty text.
-/

namespace ChainQuery

/-- **What a response says is a result or an error**, and never both: an error wins over a result,
and what is not found is an error in its place. -/
theorem Outcome.ofResponse_exclusive (query : Text) (response : Json) :
    (ofResponse query response).result = none ∨ (ofResponse query response).error = none := by
  rw [ofResponse]
  split
  next error _ => exact Or.inl rfl
  next =>
    split
    next first _ => exact Or.inr rfl
    next => exact Or.inl rfl

namespace Editor

/-! ### Actions -/

/-- The action types something: it sets the input. -/
def Action.types : Action → Bool
  | .update _ => true
  | .accept _ => true
  | _ => false

/-- The action forgets the outcomes. -/
def Action.clears : Action → Bool
  | .clear => true
  | _ => false

/-- The outcome that arrives with an action, if one does. -/
def Action.outcome? : Action → Option Outcome
  | .record query response => some (.ofResponse query response)
  | _ => none

/-- **How an action sets the input.** An accepted word takes the place of the word that is being
typed, and a space is put behind it; all that stands before stays. -/
inductive Action.Sets : Action → Text → Text → Prop
  /-- The input is replaced. -/
  | update (old new : Text) : Sets (.update new) old new
  /-- The word that is being typed is replaced. -/
  | accept {old kept : Text} (word : Text) (h : old = kept ++ Cursor.fragment old) :
      Sets (.accept word) old (kept ++ word ++ [' '])

theorem Action.Sets.types {action : Action} {old new : Text} (h : action.Sets old new) :
    action.types = true := by
  cases h <;> rfl

theorem Action.clears_of_types {action : Action} (h : action.types = true) :
    action.clears = false := by
  cases action with
  | clear => cases h
  | _ => rfl

theorem Action.outcome?_of_types {action : Action} (h : action.types = true) :
    action.outcome? = none := by
  cases action with
  | record query response => cases h
  | _ => rfl

/-- The input is the same, and what follows from it. -/
structure SameQuery (before after : Editor) : Prop where
  /-- The input is the same. -/
  input : after.input = before.input
  /-- The suggestions are the same. -/
  suggestions : after.suggestions = before.suggestions
  /-- The diagnostic is the same. -/
  diagnostic : after.diagnostic = before.diagnostic

/-- **What an action changes**, and what it leaves as it is. -/
inductive Step : Editor → Action → Editor → Prop
  /-- What types sets the input, and leaves the outcomes alone. -/
  | type {before after : Editor} {action : Action}
      (hinput : action.Sets before.input after.input)
      (houtcomes : after.outcomes = before.outcomes) : Step before action after
  /-- Handing in the query changes nothing. -/
  | submit (editor : Editor) : Step editor .submit editor
  /-- A response is one outcome more. -/
  | record {before after : Editor} {query : Text} {response : Json}
      (hquery : SameQuery before after)
      (houtcomes : after.outcomes = before.outcomes ++ [.ofResponse query response]) :
      Step before (.record query response) after
  /-- All outcomes are forgotten. -/
  | clear {before after : Editor} (hquery : SameQuery before after) (houtcomes : after.outcomes = []) :
      Step before .clear after

/-- The word that is accepted replaces the one that is being typed. -/
theorem sets_accepted (old word : Text) : (Action.accept word).Sets old (accepted old word) :=
  .accept word (Text.uptoLast_append_getLastD_pieces ' ' old).symm

/-- **Every action is a step.** -/
theorem step_perform (editor : Editor) (action : Action) :
    Step editor action (editor.perform action).1 := by
  cases action with
  | update input => exact .type (.update editor.input input) rfl
  | accept word => exact .type (sets_accepted editor.input word) rfl
  | submit => exact .submit editor
  | record query response => exact .record ⟨rfl, rfl, rfl⟩ rfl
  | clear => exact .clear ⟨rfl, rfl, rfl⟩ rfl

/-- What does not type leaves the input as it is, and what follows from it. -/
theorem Step.sameQuery {before after : Editor} {action : Action} (h : Step before action after)
    (haction : action.types = false) : SameQuery before after := by
  cases h with
  | type hinput houtcomes =>
    rw [hinput.types] at haction
    cases haction
  | submit => exact ⟨rfl, rfl, rfl⟩
  | record hquery houtcomes => exact hquery
  | clear hquery houtcomes => exact hquery

/-- What types sets the input. -/
theorem Step.sets {before after : Editor} {action : Action} (h : Step before action after)
    (haction : action.types = true) : action.Sets before.input after.input := by
  cases h with
  | type hinput houtcomes => exact hinput
  | submit => cases haction
  | record hquery houtcomes => cases haction
  | clear hquery houtcomes => cases haction

/-- A step adds the outcome that arrives, if one does, or forgets all outcomes. -/
theorem Step.outcomes {before after : Editor} {action : Action} (h : Step before action after) :
    after.outcomes =
      if action.clears then [] else before.outcomes ++ action.outcome?.toList := by
  cases h with
  | type hinput houtcomes =>
    rw [houtcomes, Action.clears_of_types hinput.types, Action.outcome?_of_types hinput.types]
    simp
  | submit => simp [Action.clears, Action.outcome?]
  | record hquery houtcomes => simp [houtcomes, Action.clears, Action.outcome?]
  | clear hquery houtcomes => simp [houtcomes, Action.clears]

/-! ### What follows from the input -/

/-- **What an editor shows is that of its input**: the suggestions are those for the input, and
none if there can be none, and the diagnostic is what is wrong with the input, if anything is. -/
structure Derived (editor : Editor) : Prop where
  /-- What is wrong is what is wrong with the input. -/
  diagnostic : ∀ d, editor.diagnostic = some d ↔ Query.read editor.input true = .error d
  /-- The suggestions are those for the input. -/
  suggestions : ∀ l, complete editor.input = .ok l → editor.suggestions = l
  /-- If suggestions cannot be made, there are none. -/
  no_suggestions : ∀ failure, complete editor.input = .error failure → editor.suggestions = []

theorem diagnostic?_eq_some_iff {raw : Text} {d : Diagnostic} :
    Query.diagnostic? raw = some d ↔ Query.read raw true = .error d := by
  change Query.diagnostic? raw = some d ↔ Query.judge raw = .error d
  rw [Query.diagnostic?]
  cases Query.judge raw <;> simp

/-- A new input brings everything with it that follows from it, also when the suggestions fail. -/
theorem derived_update (editor : Editor) (input : Text) : Derived (editor.update input).1 where
  diagnostic _ := diagnostic?_eq_some_iff
  suggestions l h := by
    have hfound : complete input = .ok l := h
    rw [update, hfound]
  no_suggestions failure h := by
    have hfound : complete input = .error failure := h
    rw [update, hfound]

theorem derived_perform {action : Action} (h : action.types = true) (editor : Editor) :
    Derived (editor.perform action).1 := by
  cases action with
  | update input => exact derived_update editor input
  | accept word => exact derived_update editor (accepted editor.input word)
  | submit => cases h
  | record query response => cases h
  | clear => cases h

theorem Derived.sameQuery {before after : Editor} (h : Derived before)
    (hsame : SameQuery before after) : Derived after where
  diagnostic := by
    rw [hsame.input, hsame.diagnostic]
    exact h.diagnostic
  suggestions := by
    rw [hsame.input, hsame.suggestions]
    exact h.suggestions
  no_suggestions := by
    rw [hsame.input, hsame.suggestions]
    exact h.no_suggestions

/-! ### Runs -/

/-- **A new editor after some actions**, one after the other, whatever each of them answers. -/
def run (actions : List Action) : Editor :=
  actions.foldl (fun editor action => (editor.perform action).1) {}

theorem run_concat (actions : List Action) (action : Action) :
    run (actions ++ [action]) = ((run actions).perform action).1 := by
  rw [run, List.foldl_concat, run]

/-- The outcomes that arrived since they were last forgotten, in order. -/
def remembered (actions : List Action) : List Outcome :=
  (actions.rtakeWhile fun action => !action.clears).filterMap Action.outcome?

theorem remembered_concat (actions : List Action) (action : Action) :
    remembered (actions ++ [action]) =
      if action.clears then [] else remembered actions ++ action.outcome?.toList := by
  rw [remembered, List.rtakeWhile_concat]
  cases action.clears with
  | true => rfl
  | false => cases h : action.outcome? <;> simp [remembered, h]

/-- **The outcomes of an editor are those it has to remember.** -/
theorem outcomes_run (actions : List Action) : (run actions).outcomes = remembered actions := by
  induction actions using List.reverseRecOn with
  | nil => rfl
  | append_singleton actions action ih =>
    rw [run_concat, (step_perform (run actions) action).outcomes, remembered_concat, ih]

/-- What an editor remembers is what responses said. -/
theorem exists_record_of_mem_remembered {actions : List Action} {outcome : Outcome}
    (h : outcome ∈ remembered actions) :
    ∃ query response, .record query response ∈ actions ∧ outcome = .ofResponse query response := by
  obtain ⟨action, hmem, houtcome⟩ := List.mem_filterMap.mp h
  cases action with
  | record query response =>
    refine ⟨query, response, (List.rtakeWhile_suffix _ actions).subset hmem, ?_⟩
    exact (Option.some.inj houtcome).symm
  | _ => cases houtcome

/-- **No outcome of an editor is both a result and an error**, since no response says both. -/
theorem exclusive_run (actions : List Action) :
    ∀ outcome ∈ (run actions).outcomes, outcome.result = none ∨ outcome.error = none := by
  intro outcome houtcome
  rw [outcomes_run] at houtcome
  obtain ⟨query, response, -, rfl⟩ := exists_record_of_mem_remembered houtcome
  exact Outcome.ofResponse_exclusive query response

/-- **After something has been typed, what an editor shows is that of its input.** -/
theorem derived_run {actions : List Action} (h : ∃ action ∈ actions, action.types = true) :
    Derived (run actions) := by
  induction actions using List.reverseRecOn with
  | nil => simp at h
  | append_singleton actions action ih =>
    rw [run_concat]
    cases htypes : action.types with
    | true => exact derived_perform htypes (run actions)
    | false =>
      have hbefore : ∃ action ∈ actions, action.types = true := by
        simpa [htypes, or_and_right, exists_or] using h
      exact (ih hbefore).sameQuery ((step_perform (run actions) action).sameQuery htypes)

/-- **The input is what was set by the last action that types.** -/
theorem input_run {actions : List Action} (h : ∃ action ∈ actions, action.types = true) :
    ∃ before action after, actions = before ++ action :: after ∧
      (∀ later ∈ after, later.types = false) ∧
      action.Sets (run before).input (run actions).input := by
  induction actions using List.reverseRecOn with
  | nil => simp at h
  | append_singleton actions action ih =>
    rw [run_concat]
    have hstep := step_perform (run actions) action
    cases htypes : action.types with
    | true => exact ⟨actions, action, [], rfl, by simp, hstep.sets htypes⟩
    | false =>
      have hbefore : ∃ action ∈ actions, action.types = true := by
        simpa [htypes, or_and_right, exists_or] using h
      obtain ⟨before, last, after, hsplit, hafter, hsets⟩ := ih hbefore
      refine ⟨before, last, after ++ [action], by simp [hsplit], ?_, ?_⟩
      · intro later hlater
        rcases List.mem_append.mp hlater with hlater | hlater
        · exact hafter later hlater
        · rw [List.mem_singleton.mp hlater, htypes]
      · rwa [(hstep.sameQuery htypes).input]

/-- **An editor that shows nothing but what happened to it.** -/
structure Reflects (actions : List Action) (editor : Editor) : Prop where
  /-- The input was set by the last action that types. -/
  input : ∃ before action after, actions = before ++ action :: after ∧
    (∀ later ∈ after, later.types = false) ∧ action.Sets (run before).input editor.input
  /-- Suggestions and diagnostic are those of the input. -/
  derived : Derived editor
  /-- The outcomes are those that arrived since they were last forgotten. -/
  outcomes : editor.outcomes = remembered actions
  /-- No outcome is both a result and an error. -/
  exclusive : ∀ outcome ∈ editor.outcomes, outcome.result = none ∨ outcome.error = none

/-- **An editor never drifts from its input**, whatever happens to it and whatever fails, once
something has been typed; and no action changes more than it should. -/
theorem reflects_run (actions : List Action) (h : ∃ action ∈ actions, action.types = true) :
    Reflects actions (run actions) ∧
      ∀ editor action, Step editor action (editor.perform action).1 :=
  ⟨⟨input_run h, derived_run h, outcomes_run actions, exclusive_run actions⟩, step_perform⟩

/-- Here the word that is accepted makes the suggestions fail. One response brings an error and a
result, of which the error is kept, and the other a result that is no integer. -/
theorem reflects_run_of_failure :
    ∃ actions editor, actions =
        [.update "GET * WH".toList, .record "GET".toList .null, .clear,
          .record "GET gas".toList
            (.ofMembers [("error", .ofMembers [("message", .string "timeout".toList)]),
              ("result", .array [.ofMembers [("result", .number 21000)]])]),
          .record "GET fee".toList
            (.ofMembers [("result",
              .array [.ofMembers [("result", .float ⟨.finite false 3 (-1), rfl⟩)]])]),
          .accept "WHERE".toList] ∧
      (∃ action ∈ actions, Action.types action = true) ∧ Reflects actions editor ∧
      complete editor.input = .error (.missingEntity .filters) ∧
      editor.input = "GET * WHERE ".toList ∧ editor.suggestions = [] ∧
      editor.outcomes =
        [{ query := "GET gas".toList, error := some "timeout".toList },
          { query := "GET fee".toList, result := some (.float ⟨.finite false 3 (-1), rfl⟩) }] := by
  refine ⟨_, _, rfl, ?types, (reflects_run _ ?types).1, ?_, ?_, ?_, ?_⟩
  case types => exact ⟨_, List.mem_cons_self, rfl⟩
  all_goals rfl

end Editor

end ChainQuery
