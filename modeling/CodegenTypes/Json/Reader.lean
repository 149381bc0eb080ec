import CodegenTypes.Json.Descriptor
import CodegenTypes.Json.Skip

namespace CodegenTypes

namespace Json

def wrongKind (c : Char) (rest : List Char) : ReadError :=
  if c = 'n' then refused (literal ['u', 'l', 'l'] rest)
  else if c = 't' then refused (literal ['r', 'u', 'e'] rest)
  else if c = 'f' then refused (literal ['a', 'l', 's', 'e'] rest)
  else if c = '"' then refused (readString true rest)
  else if startsNumber c then refused (readNumber (c :: rest))
  else if c = '[' ∨ c = '\x7b' then .mismatch
  else .malformed
where
  refused {α : Type} : Except ReadError α → ReadError
    | .error e => e
    | .ok _ => .mismatch

def readNat (limit : Nat) (cs : List Char) : Read Nat :=
  match skipBlank cs with
  | [] => .error .endOfText
  | c :: rest =>
    if startsNumber c then
      match readNumber (c :: rest) with
      | .ok (some n, rest) => if n ≤ limit then .ok (n, rest) else .error .mismatch
      | .ok (none, _) => .error .mismatch
      | .error e => .error e
    else .error (wrongKind c rest)

def readBool (cs : List Char) : Read Bool :=
  match skipBlank cs with
  | [] => .error .endOfText
  | c :: rest =>
    if c = 't' then (literal ['r', 'u', 'e'] rest).map (true, ·)
    else if c = 'f' then (literal ['a', 'l', 's', 'e'] rest).map (false, ·)
    else .error (wrongKind c rest)

def readNull (cs : List Char) : Except ReadError (List Char) :=
  match skipBlank cs with
  | [] => .error .endOfText
  | c :: rest =>
    if c = 'n' then literal ['u', 'l', 'l'] rest else .error (wrongKind c rest)

def atEnd (cs : List Char) : Except ReadError Unit :=
  if (skipBlank cs).isEmpty then .ok () else .error .malformed

def readCell : FieldType → List Char → Read Cell
  | .word32, cs => Read.mapValue .word (readNat (UInt32.size - 1) cs)
  | .word64, cs => Read.mapValue .word (readNat (UInt64.size - 1) cs)
  | .flag, cs => Read.mapValue .flag (readBool cs)

def nextItem (first : Bool) (cs : List Char) : Except ReadError (List Char) :=
  match skipBlank cs with
  | [] => .error .endOfText
  | c :: rest =>
    if c = ']' then .error .mismatch
    else if first then .ok (c :: rest)
    else if c = ',' then
      match skipBlank rest with
      | [] => .error .endOfText
      | ']' :: _ => .error .malformed
      | cs => .ok cs
    else .error .malformed

def lastItem (cs : List Char) : Except ReadError (List Char) :=
  match skipBlank cs with
  | [] => .error .endOfText
  | ']' :: rest => .ok rest
  | _ => .error .malformed

def readItems : Bool → List Field → List Char → Except ReadError (List Cell × List Char)
  | _, [], cs => (lastItem cs).map ([], ·)
  | first, f :: fields, cs => do
    let (x, cs) ← readCell f.type (← nextItem first cs)
    let (xs, cs) ← readItems false fields cs
    return (x :: xs, cs)

def nextKey (first : Bool) (cs : List Char) : Read (Option String) :=
  match skipBlank cs with
  | [] => .error .endOfText
  | '\x7d' :: rest => .ok (none, rest)
  | '"' :: rest => if first then key rest else .error .malformed
  | ',' :: rest =>
    if first then .error .malformed
    else
      match skipBlank rest with
      | [] => .error .endOfText
      | '"' :: rest => key rest
      | _ => .error .malformed
  | _ => .error .malformed
where
  key (cs : List Char) : Read (Option String) :=
    (readString true cs).map fun (s, rest) => (some (String.ofList s), rest)

namespace Record

variable {α : Type} (R : Record α)

def ofCells (xs : List Cell) : Except ReadError α := (R.ofCells? xs).elim (.error .mismatch) .ok

def ofSlots (s : Slots) : Except ReadError α :=
  (R.fields.mapM fun f => s f.key).elim (.error .mismatch) R.ofCells

/-- A field may not come twice, and a key that is not asked for may come with any value. -/
def readKeys : Nat → Bool → Slots → List Char → Except ReadError (α × List Char)
  | 0, _, _, _ => .error .endOfText
  | fuel + 1, first, s, cs => do
    match ← nextKey first cs with
    | (none, rest) => return (← R.ofSlots s, rest)
    | (some name, rest) =>
      match R.field? name with
      | none => readKeys fuel false s (← skipValue (← colon rest))
      | some f =>
        if (s name).isSome then throw .mismatch
        let (x, rest) ← readCell f.type (← colon rest)
        readKeys fuel false (s.set name x) rest

def readArray (cs : List Char) : Except ReadError (α × List Char) := do
  let (xs, rest) ← readItems true R.fields cs
  return (← R.ofCells xs, rest)

def read (text : String) : Except ReadError α := do
  match skipBlank text.toList with
  | [] => throw .endOfText
  | c :: rest =>
    let (a, rest) ←
      if c = '[' then R.readArray rest
      else if c = '\x7b' then R.readKeys rest.length true .empty rest
      else throw (wrongKind c rest)
    atEnd rest
    return a

end Record

def readTag (cs : List Char) : Read FloatFormat :=
  match readString true cs with
  | .error e => .error e
  | .ok (word, rest) =>
    match FloatFormat.ofTag? (String.ofList word) with
    | some f => .ok (f, rest)
    | none => .error .mismatch

def readTagKey (cs : List Char) : Except ReadError (FloatFormat × List Char) := do
  match skipBlank cs with
  | [] => throw .endOfText
  | '"' :: rest =>
    let (f, rest) ← readTag rest
    let rest ← readNull (← colon rest)
    match skipBlank rest with
    | [] => throw .endOfText
    | '\x7d' :: rest => return (f, rest)
    | _ => throw .malformed
  | c :: rest => throw (wrongKind c rest)

end Json

def Lanes.ofJson (text : String) : Except Json.ReadError Lanes := record.read text

def BitSize.ofJson (text : String) : Except Json.ReadError BitSize := record.read text

def FloatFormat.ofJson (text : String) : Except Json.ReadError FloatFormat := do
  match Json.skipBlank text.toList with
  | [] => throw .endOfText
  | '"' :: rest =>
    let (f, rest) ← Json.readTag rest
    Json.atEnd rest
    return f
  | '\x7b' :: rest =>
    let (f, rest) ← Json.readTagKey rest
    Json.atEnd rest
    return f
  | _ => throw .malformed

end CodegenTypes
