import SchemaProbe.Term

namespace SchemaProbe

/-!
# Decode programs

A class can say how it is decoded by a program: statements that run in order
over named variables.  What a program wants from a decoder or a container is a
request; everything else only steers which requests are made.
-/

/-- What a handle of a surface stands for. -/
inductive Role
  | decoder
  | keyed
  | unkeyed
  | single
  deriving Repr, DecidableEq

/-- What is wanted from a decoder or a container, with type forms of a kind
and keys of a kind. -/
inductive Request (T K : Type)
  | openKeyed
  | openUnkeyed
  | openSingle
  | decode (type : T) (key : Option K)
  | decodeIfPresent (type : T) (key : Option K)
  | decodeNull (key : Option K)
  | nestedKeyed (key : Option K)
  | nestedUnkeyed (key : Option K)
  | parent (key : Option K)
  | contains (key : Option K)
  | allKeys
  | count
  | isAtEnd
  | path
  deriving Repr, DecidableEq

namespace Request

/-- The key of a request, for the requests that can have one. -/
def key? : Request T K → Option K
  | .decode _ key | .decodeIfPresent _ key | .decodeNull key | .nestedKeyed key
  | .nestedUnkeyed key | .parent key | .contains key => key
  | _ => none

/-- Whether what a role stands for knows a request. -/
def isKnownTo : Role → Request T K → Bool
  | _, .path => true
  | .decoder, .openKeyed | .decoder, .openUnkeyed | .decoder, .openSingle => true
  | .decoder, _ => false
  | .keyed, .decode _ _ | .keyed, .decodeIfPresent _ _ | .keyed, .decodeNull _
  | .keyed, .nestedKeyed _ | .keyed, .nestedUnkeyed _ | .keyed, .parent _
  | .keyed, .contains _ | .keyed, .allKeys => true
  | .keyed, _ => false
  | .unkeyed, .decode _ _ | .unkeyed, .decodeIfPresent _ _ | .unkeyed, .decodeNull _
  | .unkeyed, .nestedKeyed _ | .unkeyed, .nestedUnkeyed _ | .unkeyed, .parent _
  | .unkeyed, .count | .unkeyed, .isAtEnd => true
  | .unkeyed, _ => false
  | .single, .decode _ _ | .single, .decodeNull _ => true
  | .single, _ => false

/-- Whether a request has the arguments that a role needs: a key on a keyed
container, where only a parent's key may be left out, and none elsewhere. -/
def fits : Role → Request T K → Bool
  | .keyed, .parent _ => true
  | .keyed, .allKeys | .keyed, .path => true
  | .keyed, request => request.key?.isSome
  | _, request => request.key?.isNone

/-- Whether the result of a request counts among what an instance got: what is
opened does not. -/
def isCollected : Request T K → Bool
  | .openKeyed | .openUnkeyed | .openSingle | .nestedKeyed _ | .nestedUnkeyed _
  | .parent _ => false
  | _ => true

/-- Whether a request goes to the next element of a sequence. -/
def isElement : Request T K → Bool
  | .decode _ _ | .decodeIfPresent _ _ | .nestedKeyed _ | .nestedUnkeyed _
  | .parent _ => true
  | _ => false

end Request

/-- A key as a program writes it. -/
inductive KeyTerm
  | literal (name : String)
  | variable (name : String)
  deriving Repr, DecidableEq

/-- A result as a program writes it. -/
inductive ResultTerm
  | value (v : ValueTerm)
  | variable (name : String)

/-- A statement of a decode program. -/
inductive Statement
  | request (on : String) (request : Request TypeTerm KeyTerm) (store : Option String)
  | delegate (on : String) (type : TypeTerm) (store : Option String)
  | forKeys (on key : String) (body : List Statement)
  | untilEnd (on : String) (body : List Statement)
  | branch (subject : String) (expected : Document) (agreed otherwise : List Statement)
  | attempt (body handler : List Statement)
  | give (result : ResultTerm)
  | fail (kind : FaultKind) (message : String) (location : Path)

instance : Inhabited Statement := ⟨.give (.value default)⟩

/-- A decode program. -/
abbrev Program := List Statement

end SchemaProbe
