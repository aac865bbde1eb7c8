import ChainQuery.Entity

/-!
# Chains and dump formats

The chains on which a query may run, and the kinds of file into which its results may be
dumped. The **wildcard** stands for all chains, as in the list of fields it stands for all
fields.
-/

namespace ChainQuery

/-- The wildcard, in the place of a list of fields or of a chain. -/
def wildcard : Text := "*".toList

/-- The chains by name, the wildcard first. -/
def chains : List Text :=
  wildcard :: texts ["eth", "sepolia", "mekong", "arb", "op", "base", "blast", "polygon",
    "mantle", "zksync", "taiko", "celo", "avalanche"]

/-- The chains other than the wildcard. -/
def namedChains : List Text := chains.filter (· != wildcard)

/-- Whether a text abbreviates the name of a chain: names may be cut short anywhere. -/
def abbreviatesChain (s : Text) : Bool := chains.any fun chain => Text.beginsWith s chain

/-- The endings of the files into which results can be dumped. -/
def dumpFormats : List Text := texts [".json", ".csv", ".parquet"]

end ChainQuery
