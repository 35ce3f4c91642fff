import SchemaProbe.TypeForm.Identity

namespace SchemaProbe

/-!
# Written documents

Values and type forms are written as plain documents: null, truth values,
whole numbers, texts, lists and objects with named entries.  What these
cannot say directly is an object with one tagged entry.  The entries of a
set, which have no order of their own, are written in the order of their
texts.
-/

/-- A plain document. -/
inductive Document
  | null
  | bool (b : Bool)
  | int (n : Int)
  | text (s : String)
  | list (items : List Document)
  | object (entries : List (String × Document))

instance : Inhabited Document := ⟨.null⟩

namespace Document

/-- An object with one entry. -/
def tagged
    (tag : String)
    (content : Document) :
    Document :=
  .object [(tag, content)]

/-- A pair of a name and a document. -/
def entry
    (name : String)
    (content : Document) :
    Document :=
  .list [.text name, content]

/-- A path step. -/
def ofStep : PathStep → Document
  | .key name => .text name
  | .index position => .int position

/-- A path. -/
def ofPath (path : Path) : Document :=
  .list (path.map ofStep)

/-- A number of four hexadecimal digits behind the escape mark. -/
def escapedUnit (n : Nat) : List Char :=
  '\\' :: 'u' :: Text.hexDigits 4 n

/-- One character of a text between double quotes, in ASCII alone: a
character beyond the first plane is written as two surrogates. -/
def escapedChar (c : Char) : List Char :=
  if c = '"' ∨ c = '\\' then ['\\', c]
  else if c = '\n' then ['\\', 'n']
  else if c = '\r' then ['\\', 'r']
  else if c = '\t' then ['\\', 't']
  else if c.toNat = 0x08 then ['\\', 'b']
  else if c.toNat = 0x0C then ['\\', 'f']
  else if 0x20 ≤ c.toNat ∧ c.toNat ≤ 0x7E then [c]
  else if c.toNat < 0x10000 then escapedUnit c.toNat
  else
    let offset := c.toNat - 0x10000
    escapedUnit (0xD800 + offset / 0x400) ++ escapedUnit (0xDC00 + offset % 0x400)

/-- A text between double quotes. -/
def quotedText (s : String) : String :=
  String.ofList ('"' :: s.toList.flatMap escapedChar ++ ['"'])

/-- Puts a named part among others that are ordered by name. -/
def insertByName
    (part : String × String) :
    List (String × String) → List (String × String)
  | [] => [part]
  | head :: rest =>
    if part.1 < head.1 then part :: head :: rest else head :: insertByName part rest

/-- Named parts in the order of their names. -/
def sortByName (parts : List (String × String)) : List (String × String) :=
  parts.foldl (fun sorted part => insertByName part sorted) []

mutual

/-- The text of a document, entries in the order of their names. -/
def render : Document → String
  | .null => "null"
  | .bool b => if b then "true" else "false"
  | .int n => toString n
  | .text s => quotedText s
  | .list items => enclosed "[" (renderAll items) "]"
  | .object entries =>
    enclosed "\x7b"
      ((sortByName (renderEntries entries)).map fun e => quotedText e.1 ++ ": " ++ e.2) "\x7d"

/-- The texts of documents. -/
def renderAll : List Document → List String
  | [] => []
  | d :: rest => d.render :: renderAll rest

/-- The texts of entries. -/
def renderEntries : List (String × Document) → List (String × String)
  | [] => []
  | (name, d) :: rest => (name, d.render) :: renderEntries rest

end

/-- Documents in the order of their texts. -/
def sorted (documents : List Document) : List Document :=
  let keyed := documents.map fun d => (d.render, d)
  (keyed.foldr (fun part rest =>
      let earlier := rest.takeWhile fun other => decide (other.1 < part.1)
      earlier ++ part :: rest.drop earlier.length) []).map Prod.snd

/-- The number that a document stands for, truth values included. -/
def number? : Document → Option Int
  | .bool b => some (if b then 1 else 0)
  | .int n => some n
  | _ => none

mutual

/-- Whether two documents say the same: truth values count as numbers, and
the entries of an object have no order. -/
def agrees : Document → Document → Bool
  | .null, .null => true
  | .text a, .text b => a == b
  | .list as, .list bs => agreesAll as bs
  | .object as, .object bs => as.length == bs.length && agreesEntries as bs
  | .bool a, b => b.number? == some (if a then 1 else 0)
  | .int a, b => b.number? == some a
  | _, _ => false

/-- Whether two lists of documents say the same, one by one. -/
def agreesAll : List Document → List Document → Bool
  | [], [] => true
  | a :: as, b :: bs => agrees a b && agreesAll as bs
  | _, _ => false

/-- Whether each entry agrees with the entry of its name. -/
def agreesEntries : List (String × Document) → List (String × Document) → Bool
  | [], _ => true
  | (name, a) :: as, bs =>
    (match bs.lookup name with
      | some b => agrees a b
      | none => false) && agreesEntries as bs

end

end Document

/-- Whole numbers from here on are written by their digits. -/
def exactLimit : Nat :=
  Nat.pow 2 53

/-- A whole number; one that a double cannot be trusted with is written by its
digits. -/
def intDocument (n : Int) : Document :=
  if n.natAbs < exactLimit then .int n else .tagged "$int" (.text (toString n))

/-- Bytes by their hexadecimal digits. -/
def hexText (data : List UInt8) : String :=
  String.ofList (data.flatMap fun byte => Text.hexDigits 2 byte.toNat)

/-- The word for a built-in class. -/
def Builtin.word : Builtin → String
  | .noneType => "none"
  | .uuid => "uuid"
  | .decimal => "decimal"
  | .sequence => "AbcSequence"
  | .enum => "enum"
  | .model => "model"
  | .struct => "struct"
  | b => b.name

/-- The word for a sized number class. -/
def SizedNumber.word : SizedNumber → String
  | .fixedInt => "fixed_int"
  | .fixedFloat => "fixed_float"
  | .int8 => "int8"
  | .int16 => "int16"
  | .int32 => "int32"
  | .int64 => "int64"
  | .uint => "uint"
  | .uint8 => "uint8"
  | .uint16 => "uint16"
  | .uint32 => "uint32"
  | .uint64 => "uint64"
  | .float32 => "float32"
  | .float64 => "float64"

/-- The word for an alias of a built-in class. -/
def Builtin.aliasWord : Builtin → String
  | .sequence => "seq"
  | .mutableSequence => "mutseq"
  | .iterable => "iterable"
  | .collection => "collection"
  | .abstractSet => "absset"
  | .mutableSet => "mutset"
  | .mapping => "mapping"
  | .mutableMapping => "mutmapping"
  | .orderedDict => "ordereddict"
  | .counter => "counter"
  | b => b.name

/-- A class as a type form. -/
def ClassRef.document : ClassRef → Document
  | .builtin b => .text b.word
  | .sized number _ => .text number.word
  | .user c => .tagged "ref" (.text c.name)

/-- A sequence in the form of its shape.  A plain list is a list; a list of
another class is tagged, as all other shapes are. -/
def sequenceDocument
    (shape : SequenceShape)
    (cls : Option ClassRef)
    (elements : List Document) :
    Document :=
  let content := Document.list (if shape.isSet then Document.sorted elements else elements)
  match shape, cls with
  | .list, none => content
  | _, none => .tagged ("$" ++ shape.builtin.name) content
  | _, some c => .object [("$" ++ shape.builtin.name, content), ("class", .text c.name)]

/-- A parametrised type form by its origin and arguments. -/
def genericDocument
    (origin : Origin)
    (tupleOf : Bool)
    (args : List Document) :
    Document :=
  match origin, tupleOf, args with
  | .classVar, _, _ => .tagged "classvar" (.list args)
  | .final, _, _ => .tagged "final" (.list args)
  | .cls (.builtin .tuple), true, item :: _ => .tagged "tupleof" item
  | .cls (.builtin b), _, _ => .tagged b.aliasWord (.list args)
  | .cls c, _, _ => .tagged "apply" (.list (c.document :: args))

/-- Whether arguments say that a tuple has any number of one kind of item. -/
def isTupleOf : List TypeForm → Bool
  | [_, .ellipsis] => true
  | _ => false

mutual

/-- The written form of a value. -/
def Value.document : Value → Document
  | .null => .null
  | .bool b => .bool b
  | .int n => intDocument n
  | .float x => .tagged "$float" (.text (Number.floatText x))
  | .text s => .text s
  | .bytes none data => .tagged "$bytes" (.text (hexText data))
  | .bytes (some c) data =>
    .object [("$bytes", .text (hexText data)), ("class", .text c.name)]
  | .bytearray data => .tagged "$bytearray" (.text (hexText data))
  | .date d => .tagged "$date" (.text d.isoText)
  | .moment m => .tagged "$datetime" (.text m.isoText)
  | .uuid number => .tagged "$uuid" (.text (uuidText number))
  | .decimal d => .tagged "$decimal" (.text d.text)
  | .items shape cls elements => sequenceDocument shape cls (Value.documents elements)
  | .dict none entries => .tagged "$dict" (.list (Value.entryDocuments entries))
  | .dict (some c) entries =>
    .object [("$dict", .list (Value.entryDocuments entries)), ("class", .text c.name)]
  | .type a => .tagged "$type" a.document
  | .member cls _ (some name) value =>
    .object [("$enum", .text cls.name), ("name", .text name), ("value", value.document)]
  | .member cls _ none value =>
    .object [("$enum", .text cls.name), ("name", .null), ("value", value.document)]
  | .record cls fields =>
    .object [("$obj", .text cls.name), ("fields", .list (Value.fieldDocuments fields))]
  | .object cls none => .tagged "$obj" (.text cls.name)
  | .object cls (some got) =>
    .object [("$obj", .text cls.name), ("got", .list (Value.documents got))]
  | .container path => .tagged "path" (.ofPath path)

/-- The written forms of values. -/
def Value.documents : List Value → List Document
  | [] => []
  | v :: rest => v.document :: Value.documents rest

/-- The written forms of entries. -/
def Value.entryDocuments : List (Value × Value) → List Document
  | [] => []
  | (key, value) :: rest => .list [key.document, value.document] :: Value.entryDocuments rest

/-- The written forms of fields. -/
def Value.fieldDocuments : List (String × Value) → List Document
  | [] => []
  | (name, value) :: rest => .entry name value.document :: Value.fieldDocuments rest

/-- The written form of a type form. -/
def TypeForm.document : TypeForm → Document
  | .any => .text "any"
  | .never => .text "noreturn"
  | .cls c => c.document
  | .variable name => .tagged "var" (.text name)
  | .newType _ => .tagged "raw" (.tagged "$obj" (.text "NewType"))
  | .bare b => .text (bareAliasName b)
  | .generic origin args => genericDocument origin (isTupleOf args) (TypeForm.documents args)
  | .callable params result =>
    .tagged "callable" (.list (TypeForm.documents params ++ [result.document]))
  | .union .named members => .tagged "union" (.list (TypeForm.documents members))
  | .union .bar members => .tagged "pipe" (.list (TypeForm.documents members))
  | .literal values => .tagged "literal" (.list (Value.documents values))
  | .annotated inner _ => .tagged "annotated" inner.document
  | .reference name => .tagged "fwdref" (.text name)
  | .text s => .tagged "raw" (.text s)
  | .ellipsis => .text "..."
  | .value v => .tagged "raw" v.document

/-- The written forms of type forms. -/
def TypeForm.documents : List TypeForm → List Document
  | [] => []
  | a :: rest => a.document :: TypeForm.documents rest

end

end SchemaProbe
