import ChainQuery.Proofs.Service.Showing
import ChainQuery.Proofs.Suggestion.Failures
import ChainQuery.Service.Answer

/-!
# The resources agree

A query can be handed to two resources: one reads it, the other completes it. They work on their
own, and each can refuse a query, for reasons of its own: a fault in what has been typed, or an
entity without which nothing can be suggested. A user who is told both would not know what to
believe, but this never happens (`ChainQuery.Service.answers_agree`). Where the judgement finds a
fault, nothing is suggested, and nothing is refused. Where suggestions are refused, the query is
read without fault, and shows what is missing: its last keyword is `WHERE`, and it has no entity
that exists.

This is about the two answers to a query, `ChainQuery.Service.answerReading` and
`ChainQuery.Service.answerCompletion`. How the query gets there is another matter.
-/

namespace ChainQuery

open Text

namespace Service

/-- **What a response says**: a status, and an object with some members and no others. -/
structure Response.Says (response : Response) (status : Nat) (members : List (String × Json)) :
    Prop where
  /-- The status code. -/
  status : response.status = status
  /-- The members of the object, in their order. -/
  content : response.content = .json (.ofMembers members)

variable {query : Text} {judging : Bool} {q : Query} {shown : Json}

/-! ### What is read -/

/-- **A query that can be read is shown**, and nothing else is. -/
theorem says_answerReading_of_ok (h : Query.read query judging = .ok q) :
    ∃ shown, Json.ShowsQuery q shown ∧
      (answerReading query judging).Says 200
        [("status", .string "ok".toList), ("query", shown)] := by
  refine ⟨.ofQuery q, Json.showsQuery_ofQuery q, ?_⟩
  rw [answerReading, h]
  exact ⟨rfl, rfl⟩

/-- **A fault is shown**, and nothing else is. -/
theorem says_answerReading_of_error {d : Diagnostic} (h : Query.read query judging = .error d) :
    ∃ shown, Json.ShowsDiagnostic d shown ∧
      (answerReading query judging).Says 400
        [("status", .string "error".toList), ("error", shown)] := by
  refine ⟨.ofDiagnostic d, Json.showsDiagnostic_ofDiagnostic d, ?_⟩
  rw [answerReading, h]
  exact ⟨rfl, rfl⟩

/-- A query is refused only for a fault. -/
theorem exists_fault_of_status (h : (answerReading query judging).status = 400) :
    ∃ d, Query.read query judging = .error d := by
  cases hread : Query.read query judging with
  | ok q =>
    obtain ⟨_, _, hanswer⟩ := says_answerReading_of_ok hread
    rw [hanswer.status] at h
    cases h
  | error d => exact ⟨d, rfl⟩

/-! ### What is suggested -/

/-- Where the judgement finds a fault, nothing is suggested and nothing refused. -/
theorem says_answerCompletion_of_fault {d : Diagnostic} (h : Query.judge query = .error d) :
    (answerCompletion query).Says 200
      [("status", .string "ok".toList), ("suggestions", .array [])] := by
  rw [answerCompletion, complete, h]
  exact ⟨rfl, rfl⟩

/-- Suggestions are refused only where they cannot be made. -/
theorem exists_failure_of_status (h : (answerCompletion query).status = 400) :
    ∃ failure, complete query = .error failure := by
  cases hcomplete : complete query with
  | ok suggestions =>
    rw [answerCompletion, hcomplete] at h
    cases h
  | error failure => exact ⟨failure, rfl⟩

/-- **A query that is shown awaits its entity**: its last keyword is `WHERE`, and its entity is
`null` or a name that no entity has. -/
structure AwaitsEntity (shown : Json) : Prop where
  /-- The clause of the filters stands last. -/
  lastKeyword : shown.HasMember "lastKeyword" (· = .string "WHERE".toList)
  /-- There is no entity that exists. -/
  entity : shown.HasMember "entity" fun entity =>
    entity = .null ∨ ∃ name, entity = .string name ∧ ∀ e : Entity, name ≠ e.name

theorem awaitsEntity_of_showsQuery (h : Json.ShowsQuery q shown)
    (hlast : q.lastKeyword = some .filters) (hnone : q.knownEntity? = none) :
    AwaitsEntity shown where
  lastKeyword := by
    obtain ⟨value, hmember, hvalue⟩ := h.lastKeyword
    rw [hlast] at hvalue
    cases hvalue with
    | present htext => exact ⟨value, hmember, htext⟩
  entity := by
    obtain ⟨value, hmember, hvalue⟩ := h.entity
    refine ⟨value, hmember, ?_⟩
    have hunknown := Query.knownEntity?_eq_none_iff.mp hnone
    cases hentity : q.entity with
    | none =>
      rw [hentity] at hvalue
      cases hvalue
      exact Or.inl rfl
    | some name =>
      rw [hentity] at hvalue
      cases hvalue with
      | present htext =>
        exact Or.inr ⟨name, htext, fun e he => hunknown e (hentity.trans (congrArg some he))⟩

/-- **Where suggestions are refused**, the query is read without fault, and awaits its entity. -/
theorem says_of_failure {failure : Failure} (h : complete query = .error failure) :
    (answerCompletion query).Says 400
        [("status", .string "error".toList),
          ("message", .string "WHERE suggestions require an entity".toList)] ∧
      ∃ shown, (answerReading query true).Says 200
        [("status", .string "ok".toList), ("query", shown)] ∧ AwaitsEntity shown := by
  obtain ⟨hfailure, hjudge, -, hlast, hnone⟩ := Suggestion.missingEntity_of_complete h
  constructor
  · rw [answerCompletion, h, hfailure]
    exact ⟨rfl, rfl⟩
  · have hread : Query.read query true = .ok (Query.ofText query) := hjudge
    obtain ⟨shown, hshows, hanswer⟩ := says_answerReading_of_ok hread
    exact ⟨shown, hanswer, awaitsEntity_of_showsQuery hshows hlast hnone⟩

/-! ### Both answers -/

/-- **The two resources never contradict each other.** A query is read without fault and shown, or
the fault is told, with its place; where there is a fault to be told, nothing is suggested; and where
suggestions are refused, the reason is that there is no entity yet, which the query that is read
confirms. -/
theorem answers_agree (query : Text) :
    (∀ judging,
      (∀ q, Query.read query judging = .ok q →
        ∃ shown, Json.ShowsQuery q shown ∧
          (answerReading query judging).Says 200
            [("status", .string "ok".toList), ("query", shown)]) ∧
      ∀ d, Query.read query judging = .error d →
        ∃ shown, Json.ShowsDiagnostic d shown ∧
          (answerReading query judging).Says 400
            [("status", .string "error".toList), ("error", shown)]) ∧
    ((answerReading query true).status = 400 →
      (answerCompletion query).Says 200
        [("status", .string "ok".toList), ("suggestions", .array [])]) ∧
    ((answerCompletion query).status = 400 →
      (answerCompletion query).Says 400
          [("status", .string "error".toList),
            ("message", .string "WHERE suggestions require an entity".toList)] ∧
        ∃ shown, (answerReading query true).Says 200
          [("status", .string "ok".toList), ("query", shown)] ∧ AwaitsEntity shown) := by
  refine ⟨fun judging => ⟨fun q => says_answerReading_of_ok, fun d => says_answerReading_of_error⟩,
    fun hstatus => ?_, fun hstatus => ?_⟩
  · obtain ⟨d, hread⟩ := exists_fault_of_status hstatus
    exact says_answerCompletion_of_fault hread
  · obtain ⟨failure, hfailure⟩ := exists_failure_of_status hstatus
    exact says_of_failure hfailure

/-- A field that no entity has, which is told with its place and where nothing is suggested, and a
filter that is typed before there is an entity, where suggestions are refused. -/
theorem answers_agree_on_faults :
    (∃ shown, shown.HasMember "message"
          (Json.ShowsText "Invalid field \"asdf\" for entity \"account\"".toList) ∧
        shown.HasMember "position" (Json.ShowsOption Json.ShowsSpan (some ⟨4, 8⟩)) ∧
        (answerReading "GET asdf FROM account ".toList true).Says 400
          [("status", .string "error".toList), ("error", shown)]) ∧
      (answerCompletion "GET asdf FROM account ".toList).Says 200
        [("status", .string "ok".toList), ("suggestions", .array [])] ∧
      (answerCompletion "GET * WHERE va".toList).Says 400
        [("status", .string "error".toList),
          ("message", .string "WHERE suggestions require an entity".toList)] ∧
      ∃ shown, (answerReading "GET * WHERE va".toList true).Says 200
        [("status", .string "ok".toList), ("query", shown)] ∧ AwaitsEntity shown := by
  obtain ⟨hread, hfault, -⟩ := answers_agree "GET asdf FROM account ".toList
  obtain ⟨-, -, hrefused⟩ := answers_agree "GET * WHERE va".toList
  have hmessage : Fault.message (.foreignField "asdf".toList .account) =
      "Invalid field \"asdf\" for entity \"account\"".toList := by decide
  obtain ⟨shown, hshows, hanswer⟩ :=
    (hread true).2 ⟨.foreignField "asdf".toList .account, some ⟨4, 8⟩⟩ (by decide +kernel)
  exact ⟨⟨shown, hmessage ▸ hshows.message, hshows.position, hanswer⟩, hfault (by decide +kernel),
    hrefused (by decide +kernel)⟩

end Service

end ChainQuery
