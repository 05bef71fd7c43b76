import LightLink.Json.Token

/-!
# JSON values

The tokens of a text put together to a value. The containers that are open are kept on a stack, so
that a text may nest as deeply as it likes.

* `Value.parse?`: the value of a text;
* `Value.fits`: every string in a value is text, every number finite, and nothing is nested deeper
  than a limit;
* `Value.fields?`: the values of a record's fields, given by name or in their order.
-/

namespace LightLink.Json

/-- A JSON value. An object's members are kept as they were written. -/
inductive Value where
  | null
  | bool (value : Bool)
  | number (number : Number)
  | string (pieces : List Piece)
  | array (items : List Value)
  | object (members : List (List Piece × Value))

namespace Value

/-! ## Reading -/

/-- A container around the value that is being read: what it holds so far, last entry first, and in
an object the key that the value belongs to. -/
inductive OpenContainer where
  | array (items : List Value)
  | object (members : List (List Piece × Value)) (key : List Piece)

/-- What may come next. -/
inductive Place where
  /-- A value; an array that has just been opened may be closed instead. -/
  | value (mayClose : Bool)
  /-- A key of an object with these members; one that has just been opened may be closed instead. -/
  | key (members : List (List Piece × Value)) (mayClose : Bool)
  | colon (members : List (List Piece × Value)) (key : List Piece)
  /-- A comma or the end of the list with these items. -/
  | afterItem (items : List Value)
  /-- A comma or the end of the object with these members. -/
  | afterMember (members : List (List Piece × Value))
  /-- Nothing: the text's value is complete. -/
  | done (value : Value)

/-- Where the reading stands: the containers that are open around it, innermost first, and what may
come next. -/
structure Reading where
  stack : List OpenContainer
  place : Place

/-- A value has been completed. -/
def complete (v : Value) : List OpenContainer → Reading
  | [] => ⟨[], .done v⟩
  | .array items :: stack => ⟨stack, .afterItem (v :: items)⟩
  | .object members key :: stack => ⟨stack, .afterMember ((key, v) :: members)⟩

/-- The next token, where a value may begin. -/
def begin (stack : List OpenContainer) : Token → Option Reading
  | .null => some (complete .null stack)
  | .bool b => some (complete (.bool b) stack)
  | .number n => some (complete (.number n) stack)
  | .string s => some (complete (.string s) stack)
  | .openArray => some ⟨.array [] :: stack, .value true⟩
  | .openObject => some ⟨stack, .key [] true⟩
  | _ => none

/-- The next token. -/
def step (r : Reading) (t : Token) : Option Reading :=
  match r.place, t with
  | .value true, .closeArray =>
    match r.stack with
    | .array items :: stack => some (complete (.array items.reverse) stack)
    | _ => none
  | .value _, t => begin r.stack t
  | .key members true, .closeObject => some (complete (.object members.reverse) r.stack)
  | .key members _, .string key => some ⟨r.stack, .colon members key⟩
  | .colon members key, .colon => some ⟨.object members key :: r.stack, .value false⟩
  | .afterItem items, .comma => some ⟨.array items :: r.stack, .value false⟩
  | .afterItem items, .closeArray => some (complete (.array items.reverse) r.stack)
  | .afterMember members, .comma => some ⟨r.stack, .key members false⟩
  | .afterMember members, .closeObject => some (complete (.object members.reverse) r.stack)
  | _, _ => none

/-- The value that the rest of the tokens completes. -/
def readFrom (r : Reading) : List Token → Option Value
  | [] =>
    match r.place with
    | .done v => some v
    | _ => none
  | t :: ts =>
    match step r t with
    | some r' => readFrom r' ts
    | none => none

/-- The value that tokens make. -/
def ofTokens? (ts : List Token) : Option Value := readFrom ⟨[], .value false⟩ ts

/-- The value of a text. -/
def parse? (cs : List Char) : Option Value := Token.scan? cs >>= ofTokens?

/-! ## Limits -/

mutual

/-- Every string is text, every number finite, and at most `depth` containers lie within each
other. -/
def fits : (depth : Nat) → Value → Bool
  | _, .null => true
  | _, .bool _ => true
  | _, .number n => n.isFinite
  | _, .string s => (text? s).isSome
  | 0, .array _ => false
  | 0, .object _ => false
  | depth + 1, .array items => allFit depth items
  | depth + 1, .object members => membersFit depth members

/-- `fits`, for each entry. -/
def allFit : (depth : Nat) → List Value → Bool
  | _, [] => true
  | depth, v :: vs => fits depth v && allFit depth vs

/-- `fits`, for each key and each value. -/
def membersFit : (depth : Nat) → List (List Piece × Value) → Bool
  | _, [] => true
  | depth, (key, v) :: rest => (text? key).isSome && fits depth v && membersFit depth rest

end

/-! ## Values of one kind -/

/-- The text of a string. -/
def asText? : Value → Option (List Char)
  | string s => text? s
  | _ => none

/-- A boolean. -/
def asBool? : Value → Option Bool
  | bool b => some b
  | _ => none

/-- An integer from `low` to `high`. -/
def asInt? (low high : Int) : Value → Option Int
  | number n => do
    let i ← n.int?
    if low ≤ i ∧ i ≤ high then some i else none
  | _ => none

/-- A byte. -/
def asByte? (v : Value) : Option UInt8 := (fun i => UInt8.ofNat i.toNat) <$> v.asInt? 0 255

/-- A 16-bit word. -/
def asWord? (v : Value) : Option UInt16 := (fun i => UInt16.ofNat i.toNat) <$> v.asInt? 0 65535

/-- A 32-bit word. -/
def asLong? (v : Value) : Option UInt32 := (fun i => UInt32.ofNat i.toNat) <$> v.asInt? 0 4294967295

/-- A signed 16-bit word. -/
def asSigned? (v : Value) : Option Int16 := Int16.ofInt <$> v.asInt? (-32768) 32767

/-- A list of values of one kind. -/
def asList? {α : Type} (read : Value → Option α) : Value → Option (List α)
  | array items => items.mapM read
  | _ => none

/-! ## Records -/

/-- The value of the member with this name, which at most one member may have. -/
def member? (name : String) (members : List (List Char × Value)) : Option (Option Value) :=
  match members.filter fun m => m.1 == name.toList with
  | [] => some none
  | [m] => some (some m.2)
  | _ => none

/-- The values of fields in the order of `names`; an object names them and may have other members,
a list holds them in order and may end early. -/
def fields? (names : List String) : Value → Option (List (Option Value))
  | object members => do
    let members ← members.mapM fun m => (·, m.2) <$> text? m.1
    names.mapM (member? · members)
  | array items =>
    if items.length ≤ names.length then
      some (items.map some ++ List.replicate (names.length - items.length) none)
    else none
  | _ => none

/-- The value of a field that may be missing. -/
def orDefault {α : Type} (read : Value → Option α) (default : α) : Option Value → Option α
  | some v => read v
  | none => some default

end Value

end LightLink.Json
