import CallChart.Toml.Value

/-!
# Building the tables of a document

While a document is read, a table remembers how it came to be: by a header of
its own, as part of the name of another table, or by a dotted key. A table
gets only one header, and a dotted key only adds to tables that dotted keys
have made.
-/

namespace CallChart.Toml

/-- How a table came to be. -/
inductive Origin where
  /-- It has a header, or it is the document. -/
  | header
  /-- It stands in the name of another table. -/
  | implied
  /-- A dotted key made it. -/
  | dotted
  deriving DecidableEq, Repr

inductive Item where
  | value (value : Toml)
  | table (origin : Origin) (entries : List (String × Item))
  /-- Tables under headers in two brackets, last one first. -/
  | tables (tables : List (List (String × Item)))

abbrev Items := List (String × Item)

/-- Changes what stands under a key; nothing stands under a key that is new. -/
def alter (key : String) (change : Option Item → Option Item) : Items → Option Items
  | [] => (change none).map fun item => [(key, item)]
  | entry :: entries =>
    if entry.1 = key then (change (some entry.2)).map fun item => (key, item) :: entries
    else (alter key change entries).map (entry :: ·)

/-- Changes the table that headers name by a path. Tables on the way are made if they are not
there, and of tables in two brackets it is the last one. -/
def alterAt (change : Items → Option Items) : List String → Items → Option Items
  | [], items => change items
  | key :: path, items =>
    alter key (fun
      | none => (alterAt change path []).map (Item.table .implied)
      | some (.table origin inner) => (alterAt change path inner).map (Item.table origin)
      | some (.tables (last :: tables)) =>
        (alterAt change path last).map fun last => .tables (last :: tables)
      | some _ => none) items

/-- Puts a new value under a dotted key. The tables that the other parts of the key name are made if
they are missing. One that is there may be gone through if a dotted key made it; one that is only
part of the names of other tables may be gone through too, but gets no value of its own in this way.
-/
def insertDotted (value : Toml) (key : String) : List String → Items → Option Items
  | [], items =>
    alter key (fun
      | none => some (.value value)
      | some _ => none) items
  | first :: path, items =>
    alter first (fun
      | none => (insertDotted value key path []).map (Item.table .dotted)
      | some (.table origin inner) =>
        if origin = .dotted ∨ (origin = .implied ∧ path ≠ []) then
          (insertDotted value key path inner).map (Item.table origin)
        else none
      | some (.tables (last :: tables)) =>
        if path ≠ [] then
          (insertDotted value key path last).map fun last => .tables (last :: tables)
        else none
      | some _ => none) items

/-- Opens the table under a header. A table may be opened once; one that was only implied by the
names of others may still get its header. -/
def openTable (key : String) : Items → Option Items :=
  alter key fun
    | none => some (.table .header [])
    | some (.table .implied inner) => some (.table .header inner)
    | some _ => none

def openElement (key : String) : Items → Option Items :=
  alter key fun
    | none => some (.tables [[]])
    | some (.tables tables) => some (.tables ([] :: tables))
    | some _ => none

mutual

def Item.toValue : Item → Toml
  | .value value => value
  | .table _ items => .table (itemsToValues items)
  | .tables tables => .list (tablesToValues tables).reverse

def itemsToValues : List (String × Item) → List (String × Toml)
  | [] => []
  | (key, item) :: items => (key, item.toValue) :: itemsToValues items

def tablesToValues : List (List (String × Item)) → List Toml
  | [] => []
  | items :: tables => .table (itemsToValues items) :: tablesToValues tables

end

end CallChart.Toml
