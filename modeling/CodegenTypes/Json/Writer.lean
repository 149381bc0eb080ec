import CodegenTypes.Decimal
import CodegenTypes.Json.Value

namespace CodegenTypes.Json

def escapeChar (c : Char) : List Char :=
  if c = '"' then ['\\', '"']
  else if c = '\\' then ['\\', '\\']
  else if c = '\n' then ['\\', 'n']
  else if c = '\r' then ['\\', 'r']
  else if c = '\t' then ['\\', 't']
  else if c = '\x08' then ['\\', 'b']
  else if c = '\x0c' then ['\\', 'f']
  else if c.toNat < 0x20 then
    ['\\', 'u', '0', '0', Nat.digitChar (c.toNat / 16), Nat.digitChar (c.toNat % 16)]
  else [c]

def quote (s : String) : String := "\"" ++ String.ofList (s.toList.flatMap escapeChar) ++ "\""

structure Layout where
  newline : Nat → String
  colon : String

def Layout.compact : Layout := ⟨fun _ => "", ":"⟩

def Layout.pretty : Layout :=
  ⟨fun depth => "\n" ++ String.ofList (List.replicate (2 * depth) ' '), ": "⟩

mutual

def write (l : Layout) (depth : Nat) : Json → String
  | null => "null"
  | bool b => if b then "true" else "false"
  | number n => Decimal.text n
  | string s => quote s
  | array [] => "[]"
  | array (v :: items) =>
    "[" ++ l.newline (depth + 1) ++ write l (depth + 1) v ++ writeItems l (depth + 1) items ++
      l.newline depth ++ "]"
  | object [] => "\x7b\x7d"
  | object (f :: fields) =>
    "\x7b" ++ l.newline (depth + 1) ++ writeField l (depth + 1) f ++ writeFields l (depth + 1) fields ++
      l.newline depth ++ "\x7d"

def writeItems (l : Layout) (depth : Nat) : List Json → String
  | [] => ""
  | v :: rest => "," ++ l.newline depth ++ write l depth v ++ writeItems l depth rest

def writeFields (l : Layout) (depth : Nat) : List (String × Json) → String
  | [] => ""
  | f :: rest => "," ++ l.newline depth ++ writeField l depth f ++ writeFields l depth rest

def writeField (l : Layout) (depth : Nat) : String × Json → String
  | (key, v) => quote key ++ l.colon ++ write l depth v

end

def compact (v : Json) : String := write .compact 0 v

def pretty (v : Json) : String := write .pretty 0 v

end CodegenTypes.Json
