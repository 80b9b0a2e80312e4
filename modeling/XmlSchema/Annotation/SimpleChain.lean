import XmlSchema.Context
import XmlSchema.Error

/-!
# Chains of simple types

A simple type has a base, which may be a simple type again. `Context.simpleChain` follows the bases
through the table of simple types and says which types it met and how the chain ends. What a chain
without an end stands for is decided by the policy of the compilation, in `Context.fallBack` alone.
-/

namespace XmlSchema

/-- How a chain of simple types ends. -/
inductive ChainEnd where
  /-- At a name outside the table. -/
  | leaves (name : String)
  | union
  | noBase (name : String)
  /-- Beyond the bound on its length. -/
  | endless
deriving DecidableEq

/-- The simple types on a chain, in order, and how the chain ends. -/
structure SimpleChain where
  types : List SimpleType
  ending : ChainEnd
deriving DecidableEq

namespace Context

/-- The chain from a name, with at most `hops` steps from one type in the table to another. -/
def simpleChain (context : Context) : Nat → String → SimpleChain
  | hops, name =>
      match context.simpleType? name with
      | none => ⟨[], .leaves name⟩
      | some type =>
          match type.base? with
          | none => ⟨[type], if type.members.isEmpty then .noBase name else .union⟩
          | some base =>
              let next := context.vocabulary.tableName base
              match hops with
              | 0 => ⟨[type], if (context.simpleType? next).isSome then .endless else .leaves next⟩
              | hops + 1 =>
                  let chain := context.simpleChain hops next
                  { chain with types := type :: chain.types }

/-- The string type under the lenient policy, and the error of the cause under the strict one. -/
def fallBack (context : Context) (node : String) (cause : SemanticCause) : Except Error String :=
  match context.options.fallback with
  | .lenient => .ok context.vocabulary.stringType
  | .strict => .error (.semantic ⟨node, cause⟩)

/-- The type to which a chain leads that started at a name and is followed for a node. -/
def settleChain (context : Context) (node start : String) : ChainEnd → Except Error String
  | .leaves name => .ok name
  | .union => .ok context.vocabulary.stringType
  | .noBase name => context.fallBack node (.noBase name)
  | .endless => context.fallBack node (.endlessChain start)

end Context

/-- The first facets in a list that are facets at all. -/
def firstFacets? (candidates : List Facets) : Option Facets :=
  candidates.find? fun facets => !facets.isEmpty

/-- A resolved type, and the facets met on the way to it. -/
structure ResolvedType where
  name : String
  facets? : Option Facets
deriving DecidableEq

namespace Context

/-- The type to which a simple type leads, followed for a node. -/
def resolveSimple (context : Context) (node start : String) : Except Error ResolvedType :=
  let chain := context.simpleChain context.options.limits.simpleTypeHops start
  (context.settleChain node start chain.ending).map fun name =>
    ⟨name, firstFacets? (chain.types.map SimpleType.facets)⟩

/-- Whether one of the first `rounds` types from a name on is a list. Namespaces of bases do not
count here. -/
def leadsToList (context : Context) : Nat → String → Bool
  | 0, _ => false
  | rounds + 1, name =>
      match context.simpleType? name with
      | none => false
      | some type =>
          type.isList ||
            match type.base? with
            | some base => context.leadsToList rounds (Namespace.localPart base)
            | none => false

/-- Whether a simple type is a list or leads to one. -/
def isListType (context : Context) (name : String) : Bool :=
  context.leadsToList (context.options.limits.simpleTypeHops + 1) name

end Context

end XmlSchema
