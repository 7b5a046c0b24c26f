import MeshLimiter.Decimal.Shortest
import MeshLimiter.Json.Basic
/-!
# Writing JSON text

The compact form: no blanks, the members of an object in the order they have, and only the quote,
the backslash and the controls escaped.
-/

namespace MeshLimiter.Json

/-- A character inside a text. -/
def escapedChar (c : Char) : List Char :=
  if c = '"' then ['\\', '"']
  else if c = '\\' then ['\\', '\\']
  else if c = '\x08' then ['\\', 'b']
  else if c = '\t' then ['\\', 't']
  else if c = '\n' then ['\\', 'n']
  else if c = '\x0c' then ['\\', 'f']
  else if c = '\r' then ['\\', 'r']
  else if c.toNat < 0x20 then
    '\\' :: 'u' :: '0' :: '0' :: Nat.digitChar (c.toNat / 16) :: [Nat.digitChar (c.toNat % 16)]
  else [c]

def textChars (s : String) : List Char :=
  '"' :: s.toList.flatMap escapedChar ++ ['"']

/-- A number with a fraction: positional while the point stands within sixteen places to the right
of the first digit or five to its left, and with an exponent beyond. -/
def realText (x : Float) : String :=
  match Decimal.Binary64.ofFloat x with
  | .finite negative m q =>
    let size :=
      if m == 0 then "0.0"
      else
        let s := Decimal.shortest m q
        let ds := Decimal.natDigits s.digits
        let point : Int := s.exponent + ds.length
        if 0 ≤ s.exponent && point ≤ 16 then s.positional ++ ".0"
        else if -5 < point && point ≤ 16 then s.positional
        else
          let e := Decimal.intText (point - 1)
          match ds with
          | [d] => String.ofList [d] ++ "e" ++ e
          | d :: ds => String.ofList (d :: '.' :: ds) ++ "e" ++ e
          | [] => "0.0"
    if negative then "-" ++ size else size
  | _ => "null"

def numberChars : Number → List Char
  | .int i => (Decimal.intText i).toList
  | .real x => (realText x).toList

mutual

def chars : Json → List Char
  | .null => "null".toList
  | .bool b => (if b then "true" else "false").toList
  | .num n => numberChars n
  | .str s => textChars s
  | .arr items => '[' :: itemChars items ++ [']']
  | .obj members => '\x7b' :: memberChars members ++ ['\x7d']

/-- The items of an array with commas between them. -/
def itemChars : List Json → List Char
  | [] => []
  | [v] => chars v
  | v :: w :: vs => chars v ++ ',' :: itemChars (w :: vs)

/-- The members of an object with commas between them. -/
def memberChars : List (String × Json) → List Char
  | [] => []
  | [(k, v)] => textChars k ++ ':' :: chars v
  | (k, v) :: m :: ms => textChars k ++ ':' :: chars v ++ ',' :: memberChars (m :: ms)

end

def compact (v : Json) : String :=
  String.ofList (chars v)

end MeshLimiter.Json
