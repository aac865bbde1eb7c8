import ChainQuery.Chain
import ChainQuery.Query.Inference
import Mathlib.Data.List.Nodup
import Mathlib.Order.Nat

/-!
# Fields and the entity they imply

The entities are counted one after the other, and what is remembered of those already visited is
the greatest count and who has it alone. This is all there is to know
(`ChainQuery.Lead.Knows`), so in the end the entity that is implied is the one that has strictly
more of the fields than every other (`ChainQuery.Entity.Wins`), in whatever order they stand.

A list of fields is **coherent** when the entity that it implies has all of its fields
(`ChainQuery.Coherent`); a list that implies no entity only has to consist of fields. The fields
of an entity are coherent, and so are they with one more field that is offered behind them – one
of the same entity, or any at all while the entity is open
(`ChainQuery.coherent_concat`).
-/

namespace ChainQuery

/-! ### The strict winner -/

/-- **What is remembered of the entities that were visited.** -/
structure Lead.Knows (fields : List Text) (visited : List Entity) (lead : Lead) : Prop where
  /-- No count is greater. -/
  le : ∀ e ∈ visited, e.fieldCount fields ≤ lead.count
  /-- The leader is ahead of all others. -/
  leads : ∀ e, lead.leader = some e → e.fieldCount fields = lead.count ∧
    ∀ e' ∈ visited, e' ≠ e → e'.fieldCount fields < lead.count
  /-- Where nobody leads, two entities are equal, unless none has any of the fields. -/
  tied : lead.leader = none → lead.count = 0 ∨ ∃ e ∈ visited, ∃ e' ∈ visited, e ≠ e' ∧
    e.fieldCount fields = lead.count ∧ e'.fieldCount fields = lead.count
  /-- The leader is one of the entities that were visited. -/
  visited : ∀ e, lead.leader = some e → e ∈ visited

variable {fields : List Text}

section Visit

variable {visited : List Entity} {lead : Lead} {e : Entity}

/-- The greatest number is still the greatest if one more entity has no more fields. -/
theorem Lead.Knows.le_cons (h : lead.Knows fields visited) (he : e.fieldCount fields ≤ lead.count) :
    ∀ e' ∈ e :: visited, e'.fieldCount fields ≤ lead.count := by
  intro e' he'
  rcases List.mem_cons.mp he' with rfl | he'
  · exact he
  · exact h.le e' he'

/-- Entities that are equal stay equal. -/
theorem Lead.Knows.tied_cons (h : lead.Knows fields visited) (hlead : lead.leader = none) :
    lead.count = 0 ∨ ∃ e₁ ∈ e :: visited, ∃ e₂ ∈ e :: visited, e₁ ≠ e₂ ∧
      e₁.fieldCount fields = lead.count ∧ e₂.fieldCount fields = lead.count := by
  rcases h.tied hlead with hzero | ⟨e₁, h₁, e₂, h₂, hne, hc₁, hc₂⟩
  · exact Or.inl hzero
  · exact Or.inr ⟨e₁, List.mem_cons_of_mem e h₁, e₂, List.mem_cons_of_mem e h₂, hne, hc₁, hc₂⟩

/-- An entity overtakes all others. -/
theorem Lead.Knows.overtake (h : lead.Knows fields visited) (he : lead.count < e.fieldCount fields) :
    Lead.Knows fields (e :: visited) ⟨some e, e.fieldCount fields⟩ := by
  refine ⟨?_, ?_, by simp, by simp⟩
  · intro e' he'
    rcases List.mem_cons.mp he' with rfl | he'
    · exact le_rfl
    · exact (h.le e' he').trans he.le
  · rintro e₀ ⟨⟩
    refine ⟨rfl, fun e' he' hne => ?_⟩
    rcases List.mem_cons.mp he' with rfl | he'
    · exact absurd rfl hne
    · exact (h.le e' he').trans_lt he

/-- An entity that was not visited before draws level. -/
theorem Lead.Knows.draw (h : lead.Knows fields visited) (hnew : e ∉ visited)
    (he : e.fieldCount fields = lead.count) :
    Lead.Knows fields (e :: visited) ⟨none, lead.count⟩ := by
  refine ⟨h.le_cons he.le, by simp, ?_, by simp⟩
  intro _
  cases hlead : lead.leader with
  | some e₀ =>
    have he₀ := h.visited e₀ hlead
    refine Or.inr ⟨e, List.mem_cons_self, e₀, List.mem_cons_of_mem e he₀, ?_, he,
      (h.leads e₀ hlead).1⟩
    rintro rfl
    exact hnew he₀
  | none => exact h.tied_cons hlead

/-- An entity falls behind. -/
theorem Lead.Knows.fall (h : lead.Knows fields visited) (he : e.fieldCount fields < lead.count) :
    lead.Knows fields (e :: visited) := by
  refine ⟨h.le_cons he.le, ?_, h.tied_cons, ?_⟩
  · intro e₀ he₀
    obtain ⟨hcount, hothers⟩ := h.leads e₀ he₀
    refine ⟨hcount, fun e' he' hne => ?_⟩
    rcases List.mem_cons.mp he' with rfl | he'
    · exact he
    · exact hothers e' he' hne
  · exact fun e₀ he₀ => List.mem_cons_of_mem e (h.visited e₀ he₀)

/-- **One more entity is visited.** -/
theorem Lead.Knows.visit (h : lead.Knows fields visited) (hnew : e ∉ visited) :
    (lead.visit fields e).Knows fields (e :: visited) := by
  unfold Lead.visit
  dsimp only
  split
  next hlt => exact h.overtake hlt
  next hlt =>
    split
    next heq => exact h.draw hnew heq
    next hne => exact h.fall (by omega)

end Visit

/-- Some more entities are visited, one after the other. -/
theorem Lead.Knows.foldl {entities visited : List Entity} {lead : Lead}
    (h : lead.Knows fields visited) (hnodup : entities.Nodup)
    (hnew : ∀ e ∈ entities, e ∉ visited) :
    (entities.foldl (Lead.visit fields) lead).Knows fields (entities.reverse ++ visited) := by
  induction entities generalizing visited lead with
  | nil => exact h
  | cons e entities ih =>
    obtain ⟨he, hnodup⟩ := List.nodup_cons.mp hnodup
    have hvisit := h.visit (hnew e List.mem_cons_self)
    have hlater : ∀ e' ∈ entities, e' ∉ e :: visited := by
      intro e' he' hmem
      rcases List.mem_cons.mp hmem with rfl | hmem
      · exact he he'
      · exact hnew e' (List.mem_cons_of_mem e he') hmem
    have hall := ih hvisit hnodup hlater
    rwa [List.reverse_cons, List.append_assoc]

/-- When all entities have been visited, everything is known of all of them. -/
theorem knows_impliedEntity? (fields : List Text) :
    (Entity.all.foldl (Lead.visit fields) ⟨none, 0⟩).Knows fields Entity.all.reverse := by
  have hstart : Lead.Knows fields [] ⟨none, 0⟩ := ⟨by simp, by simp, by simp, by simp⟩
  simpa using hstart.foldl (by decide) (by simp)

/-- **The entity that some fields imply is the strict winner.** -/
theorem impliedEntity?_eq_some_iff {e : Entity} :
    impliedEntity? fields = some e ↔ ∀ e', e' ≠ e → e'.fieldCount fields < e.fieldCount fields := by
  have h := knows_impliedEntity? fields
  have hmem (e' : Entity) : e' ∈ Entity.all.reverse := List.mem_reverse.mpr (Entity.mem_all e')
  rw [impliedEntity?]
  set lead := Entity.all.foldl (Lead.visit fields) ⟨none, 0⟩
  constructor
  · intro hlead e' hne
    obtain ⟨hcount, hothers⟩ := h.leads e hlead
    rw [hcount]
    exact hothers e' (hmem e') hne
  · intro hwins
    have hle := h.le e (hmem e)
    cases hlead : lead.leader with
    | some e₀ =>
      -- two entities cannot both be ahead
      by_contra hne
      have hne' : e₀ ≠ e := fun hcon => hne (by rw [hcon])
      have hless := hwins e₀ hne'
      have := (h.leads e₀ hlead).1
      omega
    | none =>
      -- one of the two that are equal is not the entity, and is not beaten by it
      exfalso
      obtain ⟨e', hne⟩ : ∃ e' : Entity, e' ≠ e := by
        cases e
        case account => exact ⟨.block, by simp⟩
        all_goals exact ⟨.account, by simp⟩
      have hless := hwins e' hne
      rcases h.tied hlead with hzero | ⟨e₁, -, e₂, -, hne₁₂, hc₁, hc₂⟩
      · omega
      · by_cases h₁ : e₁ = e
        · have := hwins e₂ (fun h₂ => hne₁₂ (h₁.trans h₂.symm))
          omega
        · have := hwins e₁ h₁
          omega

/-! ### The fields of an entity -/

namespace Entity

theorem fieldCount_le (e : Entity) (fields : List Text) :
    e.fieldCount fields ≤ fields.length := List.countP_le_length

/-- An entity that has all of the fields has as many as there are. -/
theorem fieldCount_eq_length_iff {e : Entity} :
    e.fieldCount fields = fields.length ↔ ∀ x ∈ fields, x ∈ e.fields := by
  rw [fieldCount, List.countP_eq_length]
  simp [hasField]

theorem fieldCount_concat (e : Entity) (fields : List Text) (x : Text) :
    e.fieldCount (fields ++ [x]) = e.fieldCount fields + if x ∈ e.fields then 1 else 0 := by
  rw [fieldCount, List.countP_append, fieldCount]
  simp [List.countP_cons, hasField]

theorem wildcard_notMem_fields (e : Entity) : wildcard ∉ e.fields := by cases e <;> decide

end Entity

/-- The fields of an entity imply that entity, or none. -/
theorem impliedEntity?_of_mem {e e' : Entity} (h : ∀ x ∈ fields, x ∈ e.fields)
    (h' : impliedEntity? fields = some e') : e' = e := by
  by_contra hne
  have hless := impliedEntity?_eq_some_iff.mp h' e (fun hcon => hne hcon.symm)
  have hle := e'.fieldCount_le fields
  rw [Entity.fieldCount_eq_length_iff.mpr h] at hless
  omega

/-- Fields that are counted alike imply the same entity. -/
theorem impliedEntity?_congr {fields' : List Text}
    (h : ∀ e : Entity, e.fieldCount fields = e.fieldCount fields') :
    impliedEntity? fields = impliedEntity? fields' := by
  ext e
  simp only [impliedEntity?_eq_some_iff, h]

/-- A count is the number of texts that stand in the table of the entity. -/
theorem Entity.fieldCount_eq_length_filter (e : Entity) (fields : List Text) :
    e.fieldCount fields = (fields.filter e.fields.contains).length :=
  List.countP_eq_length_filter

/-- **An entity wins a list of texts**: strictly more of them are fields of it than of any other
entity. A text that stands in the list twice counts twice. -/
def Entity.Wins (e : Entity) (fields : List Text) : Prop :=
  ∀ e', e' ≠ e →
    (fields.filter e'.fields.contains).length < (fields.filter e.fields.contains).length

theorem impliedEntity?_eq_some_iff_wins {e : Entity} :
    impliedEntity? fields = some e ↔ e.Wins fields := by
  rw [impliedEntity?_eq_some_iff]
  simp only [Entity.fieldCount_eq_length_filter, Entity.Wins]

/-- **The entity that a list implies is the one that wins it**, and without a winner none is
implied. It does not matter in which order the list stands. -/
theorem impliedEntity?_strictWinner (fields : List Text) :
    (∀ e, impliedEntity? fields = some e ↔ e.Wins fields) ∧
      (impliedEntity? fields = none ↔ ∀ e : Entity, ¬e.Wins fields) ∧
      ∀ fields', fields'.Perm fields → impliedEntity? fields' = impliedEntity? fields := by
  refine ⟨fun e => impliedEntity?_eq_some_iff_wins, ?_, fun fields' h => ?_⟩
  · simp only [Option.eq_none_iff_forall_ne_some, ne_eq, impliedEntity?_eq_some_iff_wins]
  · exact impliedEntity?_congr fun e => h.countP_eq e.hasField

/-- Accounts and blocks have two of the fields each, and transactions, which come later, have all
four; to turn the list around changes nothing. -/
theorem impliedEntity?_overtaken :
    impliedEntity? (texts ["chain", "nonce", "hash", "value"]) = some .transaction ∧
      impliedEntity? (texts ["value", "hash", "nonce", "chain"]) = some .transaction := by
  have hwins : Entity.transaction.Wins (texts ["chain", "nonce", "hash", "value"]) := by
    intro e' hne
    cases e' with
    | transaction => exact absurd rfl hne
    | account => decide
    | block => decide
    | log => decide
  have hperm : (texts ["value", "hash", "nonce", "chain"]).Perm
      (texts ["chain", "nonce", "hash", "value"]) := by decide
  obtain ⟨hsome, -, horder⟩ := impliedEntity?_strictWinner (texts ["chain", "nonce", "hash", "value"])
  exact ⟨(hsome _).mpr hwins, (horder _ hperm).trans ((hsome _).mpr hwins)⟩

/-- A word that is no field implies nothing. -/
theorem impliedEntity?_concat_of_unknown {x : Text} (h : ∀ e : Entity, x ∉ e.fields) :
    impliedEntity? (fields ++ [x]) = impliedEntity? fields := by
  refine impliedEntity?_congr fun e => ?_
  rw [Entity.fieldCount_concat, if_neg (h e), Nat.add_zero]

/-! ### Coherent lists -/

/-- **A coherent list**: what stands in it besides the wildcard are fields, and they are fields
of the entity that the list implies, if it implies one. -/
def Coherent (fields : List Text) : Prop :=
  ∀ x ∈ fields, x = wildcard ∨
    ∃ e : Entity, (∀ e' ∈ impliedEntity? fields, e' = e) ∧ x ∈ e.fields

theorem coherent_of_mem {e : Entity} (h : ∀ x ∈ fields, x ∈ e.fields) : Coherent fields :=
  fun x hx => Or.inr ⟨e, fun _ he' => impliedEntity?_of_mem h he', h x hx⟩

theorem coherent_wildcard : Coherent [wildcard] := fun x hx => Or.inl (by simpa using hx)

/-- As long as the fields of an entity imply none, another entity has all of them too. -/
theorem exists_ne_of_undecided {e : Entity} (h : ∀ x ∈ fields, x ∈ e.fields)
    (hnone : impliedEntity? fields = none) : ∃ e' : Entity, e' ≠ e ∧ ∀ x ∈ fields, x ∈ e'.fields := by
  by_contra hcon
  have hwins : impliedEntity? fields = some e := by
    refine impliedEntity?_eq_some_iff.mpr fun e' hne => ?_
    rw [Entity.fieldCount_eq_length_iff.mpr h]
    refine Nat.lt_of_le_of_ne (e'.fieldCount_le fields) fun hall => ?_
    exact hcon ⟨e', hne, Entity.fieldCount_eq_length_iff.mp hall⟩
  rw [hnone] at hwins
  cases hwins

/-- Where one more field decides between entities that have all the others, the winner has it. -/
theorem mem_fields_of_decided {e w : Entity} (h : ∀ x ∈ fields, x ∈ e.fields)
    (hnone : impliedEntity? fields = none) {y : Text}
    (hw : impliedEntity? (fields ++ [y]) = some w) : ∀ x ∈ fields ++ [y], x ∈ w.fields := by
  -- of two entities that have all the others, one is not the winner, and has been beaten
  obtain ⟨e₁, hne, hall⟩ : ∃ e₁ : Entity, e₁ ≠ w ∧ ∀ x ∈ fields, x ∈ e₁.fields := by
    obtain ⟨e', hne, h'⟩ := exists_ne_of_undecided h hnone
    by_cases he : e = w
    · exact ⟨e', fun hcon => hne (hcon.trans he.symm), h'⟩
    · exact ⟨e, he, h⟩
  have hless := impliedEntity?_eq_some_iff.mp hw e₁ hne
  have hcount := e₁.fieldCount_concat fields y
  have hle := w.fieldCount_le (fields ++ [y])
  rw [Entity.fieldCount_eq_length_iff.mpr hall] at hcount
  rw [List.length_append, List.length_singleton] at hle
  refine Entity.fieldCount_eq_length_iff.mp ?_
  rw [List.length_append, List.length_singleton]
  omega

/-- **A list goes on coherently** with the wildcard, with a field of the entity that has all its
fields, and, as long as it implies no entity, with any field. -/
theorem coherent_concat {e : Entity} (h : ∀ x ∈ fields, x ∈ e.fields) {y : Text}
    (hy : y = wildcard ∨ y ∈ e.fields ∨
      (impliedEntity? fields = none ∧ ∃ e' : Entity, y ∈ e'.fields)) :
    Coherent (fields ++ [y]) := by
  rcases hy with rfl | hy | ⟨hnone, e', hy⟩
  · -- the wildcard is a field of no entity, and does not count
    intro x hx
    rcases List.mem_append.mp hx with hx | hx
    · refine Or.inr ⟨e, fun e' he' => ?_, h x hx⟩
      rw [impliedEntity?_concat_of_unknown Entity.wildcard_notMem_fields] at he'
      exact impliedEntity?_of_mem h he'
    · exact Or.inl (by simpa using hx)
  · refine coherent_of_mem (e := e) fun x hx => ?_
    rcases List.mem_append.mp hx with hx | hx
    · exact h x hx
    · rwa [List.mem_singleton.mp hx]
  · cases himplied : impliedEntity? (fields ++ [y]) with
    | none =>
      intro x hx
      refine Or.inr ?_
      rw [himplied]
      rcases List.mem_append.mp hx with hx | hx
      · exact ⟨e, by simp, h x hx⟩
      · exact ⟨e', by simp, by rwa [List.mem_singleton.mp hx]⟩
    | some w => exact coherent_of_mem (mem_fields_of_decided h hnone himplied)

end ChainQuery
