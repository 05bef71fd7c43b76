import LightLink.Toml.Word

/-!
# TOML tables

A document is a table. Its entries come one after the other, under headers and dotted keys; no entry
may be given twice, and a table that has been given as a whole may not be extended. How a table came
to be (`Origin`) decides what may be added to it.

* `Table.put?`: adds an entry under a dotted key;
* `Table.openHeader?`, `Table.openElement?`: begin a table with a header;
* `Table.within?`: changes a table further down.
-/

namespace LightLink.Toml

/-- A key, or one part of a dotted key. -/
abbrev Key := List Char

/-- How a table came to be. -/
inductive Origin where
  /-- It has a header of its own. -/
  | header
  /-- It has only been named on the way to another header. -/
  | path
  /-- It has been named by dotted keys. -/
  | dotted
  /-- It stands between braces. -/
  | inline
  deriving DecidableEq, Repr

/-- A value of a document. -/
inductive Node where
  | string (text : List Char)
  | word (word : Word)
  | array (items : List Node)
  | table (origin : Origin) (entries : List (Key × Node))
  /-- The tables of a repeated header, each by its entries, last one first. -/
  | tables (last : List (Key × Node)) (earlier : List (List (Key × Node)))

/-- The entries of a table. -/
abbrev Table := List (Key × Node)

namespace Table

/-- The value of a key. -/
def get? (t : Table) (k : Key) : Option Node := t.lookup k

/-- Changes the value of a key, or gives it one; refuses if `f` does. -/
def alter? (t : Table) (k : Key) (f : Option Node → Option Node) : Option Table :=
  match t with
  | [] => do some [(k, ← f none)]
  | (k', n) :: rest =>
    if k = k' then do some ((k', ← f (some n)) :: rest)
    else do some ((k', n) :: (← alter? rest k f))

/-- A value for a key that has none. -/
def fresh (n : Node) : Option Node → Option Node
  | none => some n
  | some _ => none

/-- Adds an entry under a dotted key. Every table on the way must be open to dotted keys, and the
last one must have been named by them alone. -/
def put? (t : Table) : List Key → Key → Node → Option Table
  | [], k, n => t.alter? k (fresh n)
  | p :: ps, k, n =>
    t.alter? p fun
      | none => do some (.table .dotted (← put? [] ps k n))
      | some (.table .dotted es) => do some (.table .dotted (← put? es ps k n))
      | some (.table .path es) =>
        if ps.isEmpty then none else do some (.table .path (← put? es ps k n))
      | some (.tables last earlier) =>
        if ps.isEmpty then none else do some (.tables (← put? last ps k n) earlier)
      | _ => none

/-- Changes the table at the end of a path of headers, naming the tables on the way that are new. -/
def within? (t : Table) (f : Table → Option Table) : List Key → Option Table
  | [] => f t
  | p :: ps =>
    t.alter? p fun
      | none => do some (.table .path (← within? [] f ps))
      | some (.table .inline _) => none
      | some (.table origin es) => do some (.table origin (← within? es f ps))
      | some (.tables last earlier) => do some (.tables (← within? last f ps) earlier)
      | _ => none

/-- Begins a table with a header of its own; at most it has been named on the way to another. -/
def openHeader? (t : Table) (path : List Key) (k : Key) : Option Table :=
  t.within? (fun t => t.alter? k fun
    | none => some (.table .header [])
    | some (.table .path es) => some (.table .header es)
    | _ => none) path

/-- Begins the next table of a repeated header. -/
def openElement? (t : Table) (path : List Key) (k : Key) : Option Table :=
  t.within? (fun t => t.alter? k fun
    | none => some (.tables [] [])
    | some (.tables last earlier) => some (.tables [] (last :: earlier))
    | _ => none) path

end Table

end LightLink.Toml
