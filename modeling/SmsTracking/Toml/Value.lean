/-!
Values and tables of a TOML document. A table remembers how it came about, since that decides
whether it may be defined or extended later: a header defines it, a longer header or a dotted key
mentions it on the way, and an inline table is closed where it is written.
-/

namespace SmsTracking.Toml

inductive Value where
  | string (s : String)
  | integer (n : Int)
  | float (text : String)
  | bool (b : Bool)
  | datetime (text : String)
  | array (items : List Value)
  | table (members : List (String × Value))
deriving Inhabited

mutual

inductive Item where
  | value (v : Value)
  | table (t : Table)
  /-- The tables of one array, of which the last one is open. -/
  | tables (earlier : List Table) (last : Table)

/-- `implicit` is a table that no header has defined, and `dotted` one that a dotted key made. -/
inductive Table where
  | mk (implicit dotted : Bool) (entries : List (String × Item))

end

namespace Table

def implicit : Table → Bool
  | mk b _ _ => b

def dotted : Table → Bool
  | mk _ b _ => b

def entries : Table → List (String × Item)
  | mk _ _ es => es

def empty : Table := mk false false []

def find? (t : Table) (key : String) : Option Item := t.entries.lookup key

def add (t : Table) (key : String) (item : Item) : Table :=
  mk t.implicit t.dotted (t.entries ++ [(key, item)])

def replace (t : Table) (key : String) (item : Item) : Table :=
  mk t.implicit t.dotted (t.entries.map fun e => if e.1 = key then (key, item) else e)

/-- Changes the table under a path. Tables that are missing on the way are made; through a dotted
key the way leads only into tables that no header has defined. -/
def change? (throughDots : Bool) (f : Table → Option Table) : List String → Table → Option Table
  | [], t => f t
  | key :: path, t =>
    match t.find? key with
    | none => do
      let child ← change? throughDots f path (mk true throughDots [])
      some (t.add key (.table child))
    | some (.value _) => none
    | some (.tables earlier last) => do
      let last ← change? throughDots f path last
      some (t.replace key (.tables earlier last))
    | some (.table child) =>
      if throughDots && !child.implicit then none
      else do
        let child ← change? throughDots f path child
        some (t.replace key (.table child))

def put? (path : List String) (key : String) (v : Value) (t : Table) : Option Table :=
  t.change? true (fun t =>
    if t.dotted == path.isEmpty || (t.find? key).isSome then none else some (t.add key (.value v))) path

def define? (path : List String) (key : String) (t : Table) : Option Table :=
  t.change? false (fun t =>
    match t.find? key with
    | none => some (t.add key (.table empty))
    | some (.table child) =>
      if child.implicit && !child.dotted then
        some (t.replace key (.table (mk false false child.entries)))
      else none
    | some _ => none) path

def append? (path : List String) (key : String) (t : Table) : Option Table :=
  t.change? false (fun t =>
    match t.find? key with
    | none => some (t.add key (.tables [] empty))
    | some (.tables earlier last) => some (t.replace key (.tables (earlier ++ [last]) empty))
    | some _ => none) path

end Table

mutual

def Item.toValue : Item → Value
  | .value v => v
  | .table t => t.toValue
  | .tables earlier last => .array (Table.toValues earlier ++ [last.toValue])

def Table.toValue : Table → Value
  | .mk _ _ entries => .table (Table.toMembers entries)

def Table.toValues : List Table → List Value
  | [] => []
  | t :: ts => t.toValue :: Table.toValues ts

def Table.toMembers : List (String × Item) → List (String × Value)
  | [] => []
  | (key, item) :: es => (key, item.toValue) :: Table.toMembers es

end

end SmsTracking.Toml
