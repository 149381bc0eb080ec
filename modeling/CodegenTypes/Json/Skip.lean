import CodegenTypes.Json.Numeral

namespace CodegenTypes.Json

inductive Frame
  | array
  | object
  deriving DecidableEq

def colon (cs : List Char) : Except ReadError (List Char) :=
  match skipBlank cs with
  | [] => .error .endOfText
  | ':' :: rest => .ok rest
  | _ => .error .malformed

def skipHead (cs : List Char) : Read (Option Frame) :=
  match skipBlank cs with
  | [] => .error .endOfText
  | c :: rest =>
    if c = 'n' then (literal ['u', 'l', 'l'] rest).map (none, ·)
    else if c = 't' then (literal ['r', 'u', 'e'] rest).map (none, ·)
    else if c = 'f' then (literal ['a', 'l', 's', 'e'] rest).map (none, ·)
    else if c = '"' then (readString false rest).map fun (_, rest) => (none, rest)
    else if c = '[' then .ok (some .array, rest)
    else if c = '\x7b' then .ok (some .object, rest)
    else if startsNumber c then (skipNumber (c :: rest)).map (none, ·)
    else .error .malformed

def skipKey : Frame → List Char → Except ReadError (List Char)
  | .array, cs => .ok cs
  | .object, cs =>
    match skipBlank cs with
    | [] => .error .endOfText
    | '"' :: rest => do
      let (_, rest) ← readString false rest
      colon rest
    | _ => .error .malformed

def Frame.close : Frame → Char
  | array => ']'
  | object => '\x7d'

/-- Passes over the rest of the open frames, innermost first.  After a value stands
a comma or the end of the frame, and after its opening a value or its end. -/
def skipFrames : Nat → List Frame → Bool → List Char → Except ReadError (List Char)
  | _, [], _, cs => .ok cs
  | 0, _ :: _, _, _ => .error .endOfText
  | fuel + 1, frame :: frames, afterValue, cs =>
    match skipBlank cs with
    | [] => .error .endOfText
    | c :: rest =>
      if c = frame.close then skipFrames fuel frames true rest
      else if afterValue && c ≠ ',' then .error .malformed
      else do
        let rest ← skipKey frame (if afterValue then rest else c :: rest)
        let (opened, rest) ← skipHead rest
        match opened with
        | none => skipFrames fuel (frame :: frames) true rest
        | some inner => skipFrames fuel (inner :: frame :: frames) false rest

def skipValue (cs : List Char) : Except ReadError (List Char) := do
  let (opened, rest) ← skipHead cs
  skipFrames rest.length opened.toList false rest

end CodegenTypes.Json
