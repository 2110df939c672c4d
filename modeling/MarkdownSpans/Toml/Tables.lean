import MarkdownSpans.Toml.Value

/-!
# Tables of TOML

While a document is read its tables can still grow: a header opens a table, the keys of a header or
of an entry open the tables on their way. What can be opened again depends on how it was made, so
that nothing is defined twice.
-/

namespace MarkdownSpans.Toml

/-- How a table came about. -/
inductive Origin where
  | header
  /-- On the way to the table of a header. -/
  | headerPath
  /-- On the way to an entry. -/
  | entryPath
  deriving DecidableEq, Repr, Inhabited

/-- A part of a document. -/
inductive Part where
  | value (value : TomlValue)
  | table (origin : Origin) (parts : List (String × Part))
  /-- Tables under one header, the latest first. -/
  | tables (reversed : List (List (String × Part)))
  deriving Inhabited

/-- The parts of a table, in the order of their keys in the document. -/
abbrev Parts := List (String × Part)

/-- Put a part in the place of the one of the same key. -/
def setPart (key : String) (part : Part) (parts : Parts) : Parts :=
  parts.map fun (k, old) => (k, if k = key then part else old)

/-- Change the table that keys lead to, with the tables on the way made if they are not there.
`origin` is that of the tables made. -/
def changeTable (origin : Origin) (change : Parts → Option Parts) :
    List String → Parts → Option Parts
  | [], parts => change parts
  | key :: keys, parts =>
    match parts.lookup key with
    | none => do
      let inner ← changeTable origin change keys []
      some (parts ++ [(key, .table origin inner)])
    | some (.value _) => none
    | some (.table made inner) =>
      if origin = .entryPath ∧ made = .header then
        none
      else do
        let inner ← changeTable origin change keys inner
        some (setPart key (.table made inner) parts)
    | some (.tables []) => none
    | some (.tables (last :: before)) =>
      if origin = .entryPath then
        none
      else do
        let last ← changeTable origin change keys last
        some (setPart key (.tables (last :: before)) parts)

/-- Add a part under a new key. -/
def addPart (key : String) (part : Part) (parts : Parts) : Option Parts :=
  if (parts.lookup key).isSome then none else some (parts ++ [(key, part)])

/-- Add the value of an entry whose keys start from some table. -/
def addEntry (keys : List String) (value : TomlValue) (parts : Parts) : Option Parts :=
  match keys.getLast? with
  | none => none
  | some key => changeTable .entryPath (addPart key (.value value)) keys.dropLast parts

/-- Open the table of a header. -/
def openTable (keys : List String) (parts : Parts) : Option Parts :=
  match keys.getLast? with
  | none => none
  | some key =>
    let enter (parts : Parts) : Option Parts :=
      match parts.lookup key with
      | none => some (parts ++ [(key, .table .header [])])
      | some (.table .headerPath inner) => some (setPart key (.table .header inner) parts)
      | some _ => none
    changeTable .headerPath enter keys.dropLast parts

/-- Open one more table of a header in double brackets. -/
def openElement (keys : List String) (parts : Parts) : Option Parts :=
  match keys.getLast? with
  | none => none
  | some key =>
    let enter (parts : Parts) : Option Parts :=
      match parts.lookup key with
      | none => some (parts ++ [(key, .tables [[]])])
      | some (.tables reversed) => some (setPart key (.tables ([] :: reversed)) parts)
      | some _ => none
    changeTable .headerPath enter keys.dropLast parts

mutual

/-- The value of a part. -/
def Part.toValue : Part → TomlValue
  | .value value => value
  | .table _ parts => .table (entries parts)
  | .tables reversed => .list (elements reversed).reverse

/-- The entries of a table. -/
def entries : List (String × Part) → List (String × TomlValue)
  | [] => []
  | (key, part) :: rest => (key, part.toValue) :: entries rest

/-- Tables as values. -/
def elements : List (List (String × Part)) → List TomlValue
  | [] => []
  | parts :: rest => .table (entries parts) :: elements rest

end

end MarkdownSpans.Toml
