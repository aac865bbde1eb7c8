import ChainQuery.Proofs.Json.Filling
import ChainQuery.Service.Endpoint

/-!
# Handing in a query

A query reaches a resource in a request, as a member of a JSON object. How the request is written
does not matter, as long as its content is not too long and fills in the form of the resource
(`ChainQuery.Service.AsksToRead`, `ChainQuery.Service.AsksToComplete`): the answer is the one to that
query, and not to any other (`ChainQuery.Service.respond_of_asksToRead`,
`ChainQuery.Service.respond_of_asksToComplete`).

Any query can be written into such a request, whatever its characters, as long as what it takes to
write it stays below the limit (`ChainQuery.Service.asksToRead_toRead`). A request with more is
refused, and its query not looked at (`ChainQuery.Service.withForm_of_bodyLimit_lt`).
-/

namespace ChainQuery

open Text

namespace Service

/-! ### Requests -/

/-- **A request hands a form to a resource**, filled in with some entries. -/
structure HandsIn (r : Request) (resource : Resource) (form : List Json.Slot)
    (entries : Json.Entries) : Prop where
  /-- The method is `POST`. -/
  method : r.method = "POST".toList
  /-- The path is that of the resource. -/
  path : r.path = resource.path
  /-- The headers announce JSON. -/
  carriesJson : carriesJson r = true
  /-- The content is not too long. -/
  short : utf8Size r.body ≤ bodyLimit
  /-- The content fills in the form. -/
  filled : Json.fillIn form r.body = .ok entries

/-- **A request asks to read a query**, with or without judgement. -/
def AsksToRead (r : Request) (query : Text) (judging : Bool) : Prop :=
  ∃ entries, HandsIn r .reading [querySlot, judgingSlot] entries ∧ queryIn entries = query ∧
    judgingIn entries = judging

/-- **A request asks to complete a query.** -/
def AsksToComplete (r : Request) (query : Text) : Prop :=
  ∃ entries, HandsIn r .completion [querySlot] entries ∧ queryIn entries = query

/-! ### How a request is written -/

/-- The request that hands an object to a resource, as it is printed. -/
def Request.ofMembers (resource : Resource) (members : Json.Entries) : Request where
  method := "POST".toList
  path := resource.path
  headers := [("content-type".toList, "application/json".toList)]
  body := (Json.object members).print

/-- The request to read a query. -/
def Request.toRead (query : Text) (judging : Bool) : Request :=
  ofMembers .reading [(querySlot.name, .string query), (judgingSlot.name, .bool judging)]

/-- The request to complete a query. -/
def Request.toComplete (query : Text) : Request :=
  ofMembers .completion [(querySlot.name, .string query)]

/-- An object with members in the slots of a form hands that form in. -/
theorem handsIn_ofMembers {resource : Resource} {form : List Json.Slot} {members : Json.Entries}
    (h : Json.StandIn form members) (hfilled : Json.isFilledIn form members = true)
    (hshort : utf8Size (Json.object members).print ≤ bodyLimit) :
    HandsIn (.ofMembers resource members) resource form members where
  method := rfl
  path := rfl
  carriesJson := by
    have hheader : ((findHeader? "content-type".toList
        [("content-type".toList, "application/json".toList)]).bind MediaType.ofText?).any
          MediaType.isJson = true := by decide +kernel
    exact hheader
  short := hshort
  filled := Json.fillIn_print h hfilled

/-- **A query can be handed in to be read**, with or without judgement, if there is room for it. -/
theorem asksToRead_toRead {query : Text} {judging : Bool}
    (hshort : utf8Size (Request.toRead query judging).body ≤ bodyLimit) :
    AsksToRead (.toRead query judging) query judging := by
  have hslots : Json.StandIn [querySlot, judgingSlot]
      [(querySlot.name, .string query), (judgingSlot.name, .bool judging)] := by
    have hnodup : [querySlot.name, judgingSlot.name].Nodup := by decide
    refine ⟨?_, hnodup⟩
    simp only [List.mem_cons, List.not_mem_nil, or_false, forall_eq_or_imp, forall_eq]
    exact ⟨⟨querySlot, rfl, trivial⟩, ⟨judgingSlot, rfl, trivial⟩⟩
  exact ⟨_, handsIn_ofMembers hslots rfl hshort, rfl, rfl⟩

/-- **A query can be handed in to be completed**, if there is room for it. -/
theorem asksToComplete_toComplete {query : Text}
    (hshort : utf8Size (Request.toComplete query).body ≤ bodyLimit) :
    AsksToComplete (.toComplete query) query := by
  have hslots : Json.StandIn [querySlot] [(querySlot.name, .string query)] := by
    refine ⟨?_, List.nodup_singleton _⟩
    simp only [List.mem_cons, List.not_mem_nil, or_false, forall_eq]
    exact ⟨querySlot, rfl, trivial⟩
  exact ⟨_, handsIn_ofMembers hslots rfl hshort, rfl⟩

/-! ### How a request is answered -/

theorem ofPath?_path (resource : Resource) : Resource.ofPath? resource.path = some resource := by
  cases resource <;> decide

/-- What is posted to a resource that allows it is answered by that resource. -/
theorem respond_of_method {r : Request} {resource : Resource} (hpath : r.path = resource.path)
    (hmethod : r.method = "POST".toList)
    (hallowed : resource.methods.contains "POST".toList = true) : respond r = resource.answer r := by
  have hpost : "POST".toList ≠ "OPTIONS".toList := by decide
  rw [respond, hpath, ofPath?_path, hmethod, if_neg hpost]
  simp only [hallowed, if_true]

/-- A form that is filled in is answered by its entries. -/
theorem withForm_of_fillIn {r : Request} {form : List Json.Slot} {entries : Json.Entries}
    (hjson : carriesJson r = true) (hshort : utf8Size r.body ≤ bodyLimit)
    (hfilled : Json.fillIn form r.body = .ok entries) (answer : Json.Entries → Response) :
    withForm form r answer = answer entries := by
  rw [withForm, hjson, if_neg (by simp), if_neg (Nat.not_lt.mpr hshort), hfilled]

/-- **What is too long is refused**, whatever it is. -/
theorem withForm_of_bodyLimit_lt {r : Request} (hjson : carriesJson r = true)
    (hlong : bodyLimit < utf8Size r.body) (form : List Json.Slot)
    (answer : Json.Entries → Response) : (withForm form r answer).status = 413 := by
  rw [withForm, hjson, if_neg (by simp), if_pos hlong]
  rfl

/-- **Whoever asks to read a query is answered** about that query. -/
theorem respond_of_asksToRead {r : Request} {query : Text} {judging : Bool}
    (h : AsksToRead r query judging) : respond r = answerReading query judging := by
  obtain ⟨entries, hhands, rfl, rfl⟩ := h
  rw [respond_of_method hhands.path hhands.method rfl]
  exact withForm_of_fillIn hhands.carriesJson hhands.short hhands.filled _

/-- **Whoever asks to complete a query is answered** about that query. -/
theorem respond_of_asksToComplete {r : Request} {query : Text} (h : AsksToComplete r query) :
    respond r = answerCompletion query := by
  obtain ⟨entries, hhands, rfl⟩ := h
  rw [respond_of_method hhands.path hhands.method rfl]
  exact withForm_of_fillIn hhands.carriesJson hhands.short hhands.filled _

end Service

end ChainQuery
