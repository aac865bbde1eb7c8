import ChainQuery.Operator

/-!
# Entities

What a query may ask for: one of four kinds of record, the **fields** that a record of the
kind has, and the **filters** by which records of the kind can be chosen, each with the
operators that it admits. The tables keep the order in which they are shown to a user, which
no suggestion ever changes.

Fields and filters are two vocabularies. A record of kind `log` is filtered by
`event_signature`, which it does not have as a field, and no filter chooses among accounts or
blocks.
-/

namespace ChainQuery

/-- The texts of a table. -/
def texts (table : List String) : List Text := table.map String.toList

/-- A field by which records are filtered, and the operators that may compare it. -/
structure FilterRule where
  /-- The field that is compared. -/
  field : Text
  /-- The operators that compare it. -/
  operators : List Operator
  deriving DecidableEq, Repr

/-- The kinds of record. -/
inductive Entity
  /-- An account. -/
  | account
  /-- A block. -/
  | block
  /-- A transaction. -/
  | transaction
  /-- A log record. -/
  | log
  deriving DecidableEq, Repr

namespace Entity

/-- The entities in the order in which they are listed. -/
def all : List Entity := [account, block, transaction, log]

/-- The name of an entity in a query. -/
def name : Entity → Text
  | account => "account".toList
  | block => "block".toList
  | transaction => "tx".toList
  | log => "log".toList

/-- The entity of that name. Names are in lower case. -/
def ofName? (s : Text) : Option Entity := all.find? fun e => e.name == s

/-! ### Fields -/

/-- The fields of an entity. -/
def fields : Entity → List Text
  | account => texts ["nonce", "balance", "code", "chain"]
  | block => texts ["number", "hash", "parent_hash", "timestamp", "state_root",
      "transactions_root", "receipts_root", "logs_bloom", "extra_data", "mix_hash",
      "total_difficulty", "base_fee_per_gas", "withdrawals_root", "blob_gas_used",
      "excess_blob_gas", "parent_beacon_block_root", "size", "chain"]
  | transaction => texts ["type", "hash", "from", "to", "data", "value", "fee", "gas_price",
      "gas", "status", "chain_id", "v", "r", "s", "max_fee_per_blob_gas",
      "blob_versioned_hashes", "max_fee_per_gas", "max_priority_fee_per_gas", "access_list",
      "y_parity", "chain", "authorization_list", "nonce"]
  | log => texts ["address", "topic0", "topic1", "topic2", "topic3", "data", "block_hash",
      "block_number", "block_timestamp", "transaction_hash", "transaction_index",
      "log_index", "removed", "chain"]

/-- Whether an entity has a field. -/
def hasField (e : Entity) (field : Text) : Bool := e.fields.contains field

/-- The few fields of an entity that are shown before the entity is known. -/
def featured : Entity → List Text
  | account => texts ["nonce", "balance", "code", "chain"]
  | block => texts ["hash", "number", "timestamp", "size"]
  | transaction =>
    texts ["hash", "nonce", "from", "to", "value", "gas", "gas_price", "data", "status"]
  | log => texts ["address", "topic0", "data", "block_number", "transaction_hash", "log_index"]

/-! ### Filters -/

/-- The filters of an entity. -/
def filterRules : Entity → List FilterRule
  | account => []
  | block => []
  | transaction =>
    [⟨"block".toList, [.eq]⟩,
     ⟨"from".toList, Operator.equality⟩,
     ⟨"to".toList, Operator.equality⟩,
     ⟨"data".toList, Operator.equality⟩,
     ⟨"value".toList, Operator.all⟩,
     ⟨"fee".toList, Operator.all⟩,
     ⟨"gas".toList, Operator.all⟩,
     ⟨"gas_price".toList, Operator.all⟩,
     ⟨"chain".toList, Operator.equality⟩,
     ⟨"max_fee_per_blob_gas".toList, Operator.all⟩,
     ⟨"blob_versioned_hashes".toList, Operator.equality⟩,
     ⟨"max_fee_per_gas".toList, Operator.all⟩,
     ⟨"max_priority_fee_per_gas".toList, Operator.all⟩,
     ⟨"access_list".toList, Operator.equality⟩,
     ⟨"y_parity".toList, Operator.equality⟩,
     ⟨"status".toList, Operator.equality⟩,
     ⟨"type".toList, Operator.equality⟩]
  | log =>
    (texts ["block", "event_signature", "topic0", "topic1", "topic2", "topic3", "address"]).map
      fun field => ⟨field, [.eq]⟩

/-- The filter of an entity on that field. -/
def filterRule? (e : Entity) (field : Text) : Option FilterRule :=
  e.filterRules.find? fun rule => rule.field == field

/-- The fields by which an entity is filtered. -/
def filterFields (e : Entity) : List Text := e.filterRules.map FilterRule.field

/-! ### Identifiers -/

/-- What is offered in the place of an identifier: examples of one, or how to go on without
one. -/
def hints : Entity → List Text
  | account => texts [".eth", "0x"]
  | block => texts ["1", "1:10", "latest", "pending", "finalized", "earliest"]
  | transaction => texts ["WHERE", "0x"]
  | log => texts ["WHERE"]

/-! ### The tables taken together -/

theorem mem_all (e : Entity) : e ∈ all := by cases e <;> decide

@[simp] theorem ofName?_name (e : Entity) : ofName? e.name = some e := by cases e <;> decide

theorem name_of_ofName? {s : Text} {e : Entity} (h : ofName? s = some e) : e.name = s := by
  have := List.find?_some h
  simpa using this

theorem ofName?_eq_some_iff {s : Text} {e : Entity} : ofName? s = some e ↔ s = e.name :=
  ⟨fun h => (name_of_ofName? h).symm, fun h => h ▸ ofName?_name e⟩

/-- Every featured field is a field. -/
theorem mem_fields_of_mem_featured {e : Entity} {field : Text} (h : field ∈ e.featured) :
    field ∈ e.fields := by
  revert field
  cases e <;> decide

end Entity

/-- The fields of all entities, one entity after the other. A field of several entities is
listed once for each. -/
def allFields : List Text := Entity.all.flatMap Entity.fields

/-- Whether some entity has the field. -/
def isKnownField (field : Text) : Bool := Entity.all.any fun e => e.hasField field

end ChainQuery
