import LightLink.Message.Basic

/-!
# The registry of modules

What is known of the modules on a link: for each address at which one ever answered, who it was, and
whether it still answers. An entry is never removed.
-/

namespace LightLink

/-- A module that has answered. When it did so last is not kept, as nothing asks for it. -/
structure KnownModule where
  identity : Identity
  /-- It answered when it was last asked. -/
  active : Bool
  deriving DecidableEq, Repr

/-- The known modules by ascending address. -/
structure Registry where
  toList : List (UInt16 × KnownModule) := []
  deriving DecidableEq, Repr

namespace Registry

/-- What is known of an address. -/
def get? (r : Registry) (address : UInt16) : Option KnownModule :=
  (r.toList.find? fun e => e.1 == address).map Prod.snd

/-- Puts an entry in its place, instead of one with the same address. -/
def insertEntry (address : UInt16) (k : KnownModule) :
    List (UInt16 × KnownModule) → List (UInt16 × KnownModule)
  | [] => [(address, k)]
  | e :: es =>
    if address < e.1 then (address, k) :: e :: es
    else if address = e.1 then (address, k) :: es
    else e :: insertEntry address k es

/-- The registry with an entry. -/
def insert (r : Registry) (address : UInt16) (k : KnownModule) : Registry :=
  ⟨insertEntry address k r.toList⟩

/-- A module has answered at an address; whether none had before. -/
def record (r : Registry) (address : UInt16) (identity : Identity) : Registry × Bool :=
  (r.insert address ⟨identity, true⟩, (r.get? address).isNone)

/-- No module has answered at an address; whether one was thought to be active. -/
def silent (r : Registry) (address : UInt16) : Registry × Bool :=
  match r.get? address with
  | some k => if k.active then (r.insert address { k with active := false }, true) else (r, false)
  | none => (r, false)

/-- How many modules are known. -/
def length (r : Registry) : Nat := r.toList.length

/-- No module is known. -/
def isEmpty (r : Registry) : Bool := r.toList.isEmpty

/-- The modules that answered when they were last asked. -/
def active (r : Registry) : List (UInt16 × KnownModule) := r.toList.filter fun e => e.2.active

/-- How many of them there are. -/
def activeCount (r : Registry) : Nat := r.active.length

end Registry

end LightLink
