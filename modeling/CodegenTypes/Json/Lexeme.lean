/-! The words of a JSON text: blanks, literals and strings.  Each reader takes the
characters that are left and gives back those it leaves, and stops at the first
thing wrong: the text ends too soon, it is no JSON, or it is JSON of the wrong
shape. -/

namespace CodegenTypes.Json

inductive ReadError
  | endOfText
  | malformed
  | mismatch
  deriving DecidableEq

abbrev Read (α : Type) := Except ReadError (α × List Char)

def Read.mapValue {α β : Type} (f : α → β) (r : Read α) : Read β := r.map (Prod.map f id)

def isBlank (c : Char) : Bool := c = ' ' || c = '\n' || c = '\t' || c = '\r'

def skipBlank (cs : List Char) : List Char := cs.dropWhile isBlank

def literal : List Char → List Char → Except ReadError (List Char)
  | [], cs => .ok cs
  | _ :: _, [] => .error .endOfText
  | w :: word, c :: cs => if w = c then literal word cs else .error .malformed

def hexDigit? (c : Char) : Option Nat :=
  if c.isDigit then some (c.toNat - 48)
  else if 'a' ≤ c ∧ c ≤ 'f' then some (c.toNat - 87)
  else if 'A' ≤ c ∧ c ≤ 'F' then some (c.toNat - 55)
  else none

/-- Four hexadecimal digits.  The text ends too soon only when fewer than four
bytes are left. -/
def codeUnit : List Char → Read Nat
  | a :: b :: c :: d :: rest =>
    match hexDigit? a, hexDigit? b, hexDigit? c, hexDigit? d with
    | some a, some b, some c, some d => .ok (((a * 16 + b) * 16 + c) * 16 + d, rest)
    | _, _, _, _ => .error .malformed
  | short => .error (if (String.ofList short).utf8ByteSize < 4 then .endOfText else .malformed)

def isHighSurrogate (n : Nat) : Bool := 0xD800 ≤ n && n < 0xDC00

def isLowSurrogate (n : Nat) : Bool := 0xDC00 ≤ n && n < 0xE000

def lowSurrogate : List Char → Read Nat
  | [] | ['\\'] => .error .endOfText
  | '\\' :: 'u' :: cs =>
    match codeUnit cs with
    | .ok (n, rest) => if isLowSurrogate n then .ok (n, rest) else .error .malformed
    | .error e => .error e
  | _ => .error .malformed

/-- A code point by its number.  Only a strict reader wants surrogates to pair up. -/
def codePoint (strict : Bool) (cs : List Char) : Read Char :=
  match codeUnit cs with
  | .error e => .error e
  | .ok (n, rest) =>
    if strict && isLowSurrogate n then .error .malformed
    else if strict && isHighSurrogate n then
      match lowSurrogate rest with
      | .ok (m, rest) => .ok (Char.ofNat (0x10000 + (n - 0xD800) * 0x400 + (m - 0xDC00)), rest)
      | .error e => .error e
    else .ok (Char.ofNat n, rest)

def escaped? (c : Char) : Option Char :=
  if c = '"' then some '"'
  else if c = '\\' then some '\\'
  else if c = '/' then some '/'
  else if c = 'b' then some '\x08'
  else if c = 'f' then some '\x0c'
  else if c = 'n' then some '\n'
  else if c = 'r' then some '\r'
  else if c = 't' then some '\t'
  else none

def escape (strict : Bool) : List Char → Read Char
  | [] => .error .endOfText
  | 'u' :: cs => codePoint strict cs
  | c :: cs =>
    match escaped? c with
    | some d => .ok (d, cs)
    | none => .error .malformed

theorem length_codeUnit {cs rest : List Char} {n : Nat} (h : codeUnit cs = .ok (n, rest)) :
    rest.length < cs.length := by
  unfold codeUnit at h
  split at h
  · split at h
    · cases h
      simp only [List.length_cons]
      omega
    · cases h
  · cases h

theorem length_lowSurrogate {cs rest : List Char} {n : Nat} (h : lowSurrogate cs = .ok (n, rest)) :
    rest.length < cs.length := by
  unfold lowSurrogate at h
  split at h
  · cases h
  · cases h
  · split at h
    · next h' =>
      have := length_codeUnit h'
      split at h
      · cases h
        simp only [List.length_cons]
        omega
      · cases h
    · cases h
  · cases h

theorem length_codePoint {strict : Bool} {cs rest : List Char} {c : Char}
    (h : codePoint strict cs = .ok (c, rest)) : rest.length < cs.length := by
  unfold codePoint at h
  split at h
  · cases h
  · next h' =>
    have := length_codeUnit h'
    split at h
    · cases h
    · split at h
      · split at h
        · next h'' =>
          have := length_lowSurrogate h''
          simp only [Except.ok.injEq, Prod.mk.injEq] at h
          obtain ⟨-, rfl⟩ := h
          omega
        · cases h
      · simp only [Except.ok.injEq, Prod.mk.injEq] at h
        obtain ⟨-, rfl⟩ := h
        omega

theorem length_escape {strict : Bool} {cs rest : List Char} {c : Char}
    (h : escape strict cs = .ok (c, rest)) : rest.length < cs.length := by
  unfold escape at h
  split at h
  · cases h
  · have := length_codePoint h
    simp only [List.length_cons]
    omega
  · split at h
    · cases h
      simp
    · cases h

def readString (strict : Bool) (cs : List Char) : Read (List Char) :=
  match cs with
  | [] => .error .endOfText
  | c :: rest =>
    if c = '"' then .ok ([], rest)
    else if c = '\\' then
      match h : escape strict rest with
      | .ok (d, rest') =>
        have := length_escape h
        (readString strict rest').map fun (s, r) => (d :: s, r)
      | .error e => .error e
    else if c.toNat < 0x20 then .error .malformed
    else (readString strict rest).map fun (s, r) => (c :: s, r)
termination_by cs.length

end CodegenTypes.Json
