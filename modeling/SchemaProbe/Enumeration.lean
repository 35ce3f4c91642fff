import SchemaProbe.World

namespace SchemaProbe

/-!
# Enumerations

A member is a name for a value; a second name for an equal value is an alias
and is not listed.  A value is looked up among the members, and flags also
accept combinations: the bits of known flags are named together, and what is
left over is dropped or, for flags that are numbers, kept.
-/

namespace Enumeration

/-- The whole number that a value is, truth values and numeric members
included. -/
def wholeNumber? : Value → Option Int
  | .int n => some n
  | .bool b => some (if b then 1 else 0)
  | .member _ .int _ (.int n) => some n
  | .member _ .intFlag _ (.int n) => some n
  | _ => none

/-- The value of a member, made a number or a text where the members are
numbers or texts. -/
def memberValue? (mixin : Mixin) (v : Value) : Except Fault Value :=
  match mixin with
  | .plain => .ok v
  | .int | .intFlag =>
    match wholeNumber? v with
    | some n => .ok (.int n)
    | none => .error .wrongArguments
  | .flag =>
    match wholeNumber? v with
    | some _ => .ok v
    | none => .error .wrongArguments
  | .str =>
    match v with
    | .text s => .ok (.text s)
    | other => .ok (.text other.display)

/-- Splits named values into the members and the aliases of earlier members. -/
def split :
    List (String × Value) → List (String × Value) × List (String × Value)
  | [] => ([], [])
  | m :: rest =>
    let (members, aliases) := split rest
    (m :: members.filter fun other => !m.2.equals other.2,
      (members.filter fun other => m.2.equals other.2) ++ aliases)

/-- All bits that some member has. -/
def mask (members : List (String × Value)) : Nat :=
  members.foldl (fun bits m =>
    match m.2 with
    | .int n => bits ||| n.toNat
    | _ => bits) 0

/-- All bits up to the highest that some member has. -/
def width (members : List (String × Value)) : Nat :=
  if mask members = 0 then 0 else Nat.pow 2 (mask members).log2.succ - 1

/-- The bits that two whole numbers share, the first in two's complement. -/
def sharedBits (n : Int) (bits : Nat) : Nat :=
  if 0 ≤ n then n.toNat &&& bits
  else bits - ((-n - 1).toNat &&& bits)

/-- The combination that a whole number stands for.  A number beyond the known
bits is cut down to them, or kept by flags that are numbers; a negative number
counts from above the highest bit. -/
def combination (keeps : Bool) (members : List (String × Value)) (n : Int) : Nat :=
  let known := mask members
  let all := width members
  let beyond := n < -(all : Int) - 1 || (all : Int) < n || sharedBits n (all - known) != 0
  let kept : Int :=
    if !beyond then n
    else if !keeps then sharedBits n known
    else if n < 0 then
      let bitLength := if n = 0 then 0 else (n.natAbs.log2 + 1)
      (max (all + 1) (Nat.pow 2 bitLength) : Nat) + n
    else n
  (if kept < 0 then (all : Int) + 1 + kept else kept).toNat

/-- The name of a combination: its flags in the order of declaration, then the
bits that no flag has. -/
def combinationName?
    (members : List (String × Value))
    (value : Nat) :
    Option String :=
  let known := mask members
  let flags := (World.listedMembers .flag members).filter fun m =>
    match m.2 with
    | .int n => n.toNat &&& value != 0
    | _ => false
  let unknown := value - (value &&& known)
  if value &&& known = 0 then none
  else
    some (String.intercalate "|" (flags.map Prod.fst
      ++ (if unknown = 0 then [] else [toString unknown])))

/-- The member with an equal value. -/
def named?
    (cls : UserClass)
    (mixin : Mixin)
    (members : List (String × Value))
    (raw : Value) :
    Option Value :=
  (members.find? fun m => m.2.equals raw).map (memberValue cls mixin)

/-- The combination of flags that a value stands for. -/
def combined?
    (cls : UserClass)
    (mixin : Mixin)
    (members : List (String × Value))
    (raw : Value) :
    Option Value :=
  (wholeNumber? raw).map fun n =>
    let value := combination (mixin == .intFlag) members n
    (named? cls mixin members (.int value)).getD
      (.member cls mixin (combinationName? members value) (.int value))

/-- The member that a value stands for. -/
def ofValue?
    (cls : UserClass)
    (mixin : Mixin)
    (members : List (String × Value))
    (raw : Value) :
    Option Value :=
  match raw with
  | .member other _ _ _ =>
    if other == cls then some raw else lookUp
  | _ => lookUp
where
  /-- Looks the value up among the members and, for flags, their
  combinations. -/
  lookUp : Option Value :=
    (named? cls mixin members raw).or
      (match mixin with
        | .flag | .intFlag => combined? cls mixin members raw
        | _ => none)

end Enumeration

namespace World

/-- The members that a class lists, if it is an enumeration. -/
def members? (w : World) (c : ClassRef) : Option (List Value) :=
  match w.body c, c with
  | .enumeration mixin members _, .user cls =>
    some ((listedMembers mixin members).map (memberValue cls mixin))
  | .enumeration _ _ _, _ => some []
  | _, _ => none

/-- The member of an enumeration that a value stands for. -/
def memberOf? (w : World) (c : ClassRef) (raw : Value) : Option Value :=
  match w.body c, c with
  | .enumeration mixin members _, .user cls => Enumeration.ofValue? cls mixin members raw
  | _, _ => none

/-- The member of an enumeration with a name or an alias. -/
def memberNamed? (w : World) (c : ClassRef) (name : String) : Option Value :=
  match w.body c, c with
  | .enumeration mixin members aliases, .user cls =>
    match members.lookup name with
    | some v => some (memberValue cls mixin (name, v))
    | none => (aliases.lookup name).bind (Enumeration.named? cls mixin members)
  | _, _ => none

end World

end SchemaProbe
