import RobotScript.Toml.Basic

/-!
# Tables under construction

While a document is read, a table remembers how it came to be: named by a header or a key of its
own, or only as a part of a longer name. A table may be named once, and what is finished may not be
extended.
-/

namespace RobotScript.Toml

mutual

/-- What a key stands for while a document is read. -/
inductive Node where
  | value (v : Value)
  | table (t : Table)
  | tables (finished : List Table) (last : Table)

/-- A table while a document is read. It is implicit if it has not been named by itself, and dotted
if it comes from a key with dots. -/
inductive Table where
  | mk (implicit dotted : Bool) (entries : List (String × Node))

end

instance : Inhabited Table := ⟨.mk false false []⟩

namespace Table

/-- Whether the table has not been named by itself. -/
def isImplicit : Table → Bool
  | .mk implicit _ _ => implicit

/-- Whether the table comes from a key with dots. -/
def isDotted : Table → Bool
  | .mk _ dotted _ => dotted

/-- The entries in the order in which they were written. -/
def entries : Table → List (String × Node)
  | .mk _ _ entries => entries

/-- The table with other entries. -/
def withEntries (t : Table) (entries : List (String × Node)) : Table :=
  .mk t.isImplicit t.isDotted entries

/-- What a key stands for. -/
def get? (t : Table) (key : String) : Option Node :=
  (t.entries.find? fun entry => entry.1 == key).map Prod.snd

/-- The table in which a key stands for `node`, at the place that the key had or at the end. -/
def set (t : Table) (key : String) (node : Node) : Table :=
  if t.entries.any fun entry => entry.1 == key then
    t.withEntries (t.entries.map fun entry => if entry.1 == key then (key, node) else entry)
  else t.withEntries (t.entries ++ [(key, node)])

/-- Changes the table that a path of keys leads to. Tables that are missing on the way are made.
A key with dots (`dotted`) may only lead through tables that have not been named by themselves. -/
def modifyAt (dotted : Bool) (change : Table → Except Error Table) :
    List String → Table → Except Error Table
  | [], t => change t
  | key :: path, t =>
    match t.get? key with
    | none => do
      let inner ← modifyAt dotted change path (.mk true dotted [])
      .ok (t.set key (.table inner))
    | some (.value _) => .error (.duplicateKey key)
    | some (.tables finished last) => do
      let inner ← modifyAt dotted change path last
      .ok (t.set key (.tables finished inner))
    | some (.table inner) =>
      if dotted && !inner.isImplicit then .error (.duplicateKey key)
      else do
        let inner ← modifyAt dotted change path inner
        .ok (t.set key (.table inner))

/-- Adds a key with a value, after the keys of `path` that stand before it. The value goes into a
table of the same kind: a dotted one exactly if there is such a path. -/
def insert (path : List String) (key : String) (v : Value) (t : Table) : Except Error Table :=
  t.modifyAt true
    (fun target =>
      if target.isDotted == path.isEmpty then .error (.duplicateKey key)
      else
        match target.get? key with
        | some _ => .error (.duplicateKey key)
        | none => .ok (target.set key (.value v)))
    path

/-- Names the table `key` below the tables of `path` by a header. It must not have been named
before, and not come from a key with dots. -/
def openTable (path : List String) (key : String) (t : Table) : Except Error Table :=
  t.modifyAt false
    (fun parent =>
      match parent.get? key with
      | none => .ok (parent.set key (.table (.mk false false [])))
      | some (.table (.mk true false entries)) =>
        .ok (parent.set key (.table (.mk false false entries)))
      | some _ => .error (.duplicateKey key))
    path

/-- Begins one more table of the array `key` below the tables of `path`. -/
def openItem (path : List String) (key : String) (t : Table) : Except Error Table :=
  t.modifyAt false
    (fun parent =>
      match parent.get? key with
      | none => .ok (parent.set key (.tables [] (.mk false false [])))
      | some (.tables finished last) =>
        .ok (parent.set key (.tables (finished ++ [last]) (.mk false false [])))
      | some _ => .error (.duplicateKey key))
    path

/-- Adds a key with a value to the table that the last header opened, which `header` leads to. -/
def insertUnder (header path : List String) (key : String) (v : Value) (t : Table) :
    Except Error Table :=
  t.modifyAt false (insert path key v) header

end Table

mutual

/-- The value that a key stands for. -/
def Node.toValue : Node → Value
  | .value v => v
  | .table t => t.toValue
  | .tables finished last => .array (Table.toValues finished ++ [last.toValue])

/-- The value of a table. -/
def Table.toValue : Table → Value
  | .mk _ _ entries => .table (Node.toEntries entries)

/-- The values of tables. -/
def Table.toValues : List Table → List Value
  | [] => []
  | t :: ts => t.toValue :: Table.toValues ts

/-- The values of entries. -/
def Node.toEntries : List (String × Node) → List (String × Value)
  | [] => []
  | (key, node) :: rest => (key, node.toValue) :: Node.toEntries rest

end

end RobotScript.Toml
