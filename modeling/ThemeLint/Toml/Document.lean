import ThemeLint.Toml.Reader

namespace ThemeLint.Toml

open Bytes

-- What a key leads to. Of a list of tables only the last one can still change,
-- and the list is known by that one.
inductive Slot where
  | value (value : Value)
  | table
  | tables

def Slot.isOpen : Slot → Bool
  | value _ => false
  | table | tables => true

structure Draft where
  slots : List (Key × Slot)
  -- tables that exist only because a longer key passes through them
  implied : List Key
  -- keys that an array was last written to
  arrays : List Key
  -- every header and assignment, the last one first
  named : List Key

inductive Conflict where
  | notTable (key : Key)
  | notTables (key : Key)
  | defined (key : Key)
deriving DecidableEq, Repr

namespace Draft

def empty : Draft := ⟨[], [], [], []⟩

def get? (d : Draft) (key : Key) : Option Slot := d.slots.lookup key

def imply (d : Draft) (key : Key) : Draft := { d with implied := key :: d.implied }

def confirm (d : Draft) (key : Key) : Draft := { d with implied := d.implied.filter (· ≠ key) }

-- Something new at a key, in place of what stood there and below.
def put (d : Draft) (key : Key) (slot : Slot) : Draft :=
  { d with slots := (key, slot) :: d.slots.filter fun entry => !key.isPrefixOf entry.1 }

-- A slot at a key. What is there already can only be named again if it was implied:
-- it becomes a real table or, where an array was written, is replaced.
def set (d : Draft) (key : Key) (slot : Slot) : Except Conflict Draft :=
  match d.get? key with
  | none => .ok (d.put key slot)
  | some _ =>
    if !d.implied.contains key then .error (.defined key)
    else if d.arrays.contains key then .ok ((d.confirm key).put key slot)
    else .ok (d.confirm key)

def above (key : Key) : List Key := (List.range key.length).tail.map key.take

-- Goes down to a key through tables. Those that are missing are implied.
def enter (d : Draft) (key : Key) : Except Conflict Draft :=
  (above key).foldlM (fun d key =>
    match d.get? key with
    | none => .ok ((d.imply key).put key .table)
    | some slot => if slot.isOpen then .ok d else .error (.notTable key)) d

def isReachable (d : Draft) (key : Key) : Bool :=
  (above key).all fun key => (d.get? key).any Slot.isOpen

def openTable (d : Draft) (key : Key) : Except Conflict Draft := do
  let d ← d.enter key
  d.set key .table

def openElement (d : Draft) (key : Key) : Except Conflict Draft := do
  let d ← d.enter key
  match d.get? key with
  | none | some .tables => .ok (d.put key .tables)
  | some _ => .error (.notTables key)

def openParents (d : Draft) (context : Key) (key : Key) : Except Conflict Draft :=
  (above key).foldlM (fun d part => (d.imply (context ++ part)).openTable (context ++ part)) d

def noteArray (d : Draft) (key : Key) (isArray : Bool) : Draft :=
  let others := d.arrays.filter (· ≠ key)
  { d with arrays := if isArray then key :: others else others }

-- Ends an inline table. Its pairs stand already, and the table has to be one that
-- is implied still.
def closeTable (d : Draft) (key : Key) : Except Conflict Draft :=
  if d.implied.contains key then .ok (d.confirm key) else .error (.defined key)

def setValue (d : Draft) (key : Key) (value : Value) : Except Conflict Draft :=
  if !d.isReachable key then .error (.notTable key)
  else match value with
    | .table _ => d.closeTable key
    | value => d.set key (.value value)

end Draft

-- Where an array is noted. For an empty name inside a table that is the table.
def noteKey (key : Key) : Key :=
  if key.length > 1 && key.getLast? == some [] then key.dropLast else key

namespace Value

def isArray : Value → Bool
  | array _ => true
  | _ => false

mutual

def arrayKeys : Value → List Key
  | .text _ | .plain => []
  | .array _ => [[]]
  | .table pairs => arrayKeysOf pairs

def arrayKeysOf : List (Key × Value) → List Key
  | [] => []
  | (key, value) :: pairs => value.arrayKeys.map (key ++ ·) ++ arrayKeysOf pairs

end

end Value

mutual

-- Evaluates the value of a key. An array is noted before its items are read; an
-- inline table opens the table at its key or, as an item, another one of a list.
def Draft.evaluate (d : Draft) (key : Key) (isItem : Bool) : Value → Except Conflict Draft
  | .text _ | .plain => .ok d
  | .array items => (d.noteArray (noteKey key) true).evaluateItems key items
  | .table pairs => do
    let opened ← if isItem then (d.imply key).openElement key else (d.imply key).openTable key
    opened.assignPairs key [] pairs

def Draft.evaluateItems (d : Draft) (key : Key) : List Value → Except Conflict Draft
  | [] => .ok d
  | item :: items => do
    let d ← d.evaluate key true item
    d.evaluateItems key items

-- Assigns pairs to keys of a table, one after the other. `arrays` are the keys,
-- from the table on, that hold arrays by an earlier pair: no key leads through them.
def Draft.assignPairs (d : Draft) (table : Key) (arrays : List Key) :
    List (Key × Value) → Except Conflict Draft
  | [] => .ok d
  | (key, value) :: pairs => do
    let place := table ++ key
    let opened ← d.openParents table key
    let evaluated ← { opened with named := place :: opened.named }.evaluate place false value
    let assigned ← evaluated.setValue place value
    if (Draft.above key).any arrays.contains then .error (.notTable place)
    else
      (assigned.noteArray (noteKey place) value.isArray).assignPairs table
        (value.arrayKeys.map (key ++ ·) ++ arrays.filter fun other => !key.isPrefixOf other) pairs

end

namespace Draft

def perform (d : Draft) (table : Key) : Statement → Except Conflict (Draft × Key)
  | .table key => do
    let d ← d.openTable key
    .ok ({ d.noteArray key false with named := key :: d.named }, key)
  | .element key => do
    let d ← d.openElement key
    .ok ({ d.noteArray key false with named := key :: d.named }, key)
  | .assign key value => do
    let d ← d.assignPairs table [] [(key, value)]
    .ok (d, table)

end Draft

structure Document where
  -- what the names at the top lead to, the last written last
  settings : List (Bytes × Slot)
  keys : List Key

-- An order in which the names at the top of a document are visited. No document asks for
-- one, so whoever visits them has to be prepared for all.
structure Traversal where
  visit : List (Bytes × Slot) → List (Bytes × Slot)
  perm : ∀ entries, (visit entries).Perm entries

def Traversal.written : Traversal := ⟨id, .refl⟩

inductive DocumentError where
  | malformed
  | conflict (cause : Conflict)
deriving DecidableEq, Repr

namespace Document

def ofDraft (d : Draft) : Document where
  settings := d.slots.reverse.filterMap fun (key, slot) =>
    match key with
    | [name] => some (name, slot)
    | _ => none
  keys := d.named.reverse

def ofStatements (statements : List Statement) : Except Conflict Document := do
  let (d, _) ← statements.foldlM (fun (d, table) statement => d.perform table statement)
    (Draft.empty, [])
  .ok (ofDraft d)

def parse (source : Bytes) : Except DocumentError Document :=
  match read? source with
  | none => .error .malformed
  | some statements =>
    match ofStatements statements with
    | .error cause => .error (.conflict cause)
    | .ok document => .ok document

end Document

end ThemeLint.Toml
