/-!
# Form encoding

Names and values as one text of safe characters: letters, digits and the marks `*`, `-`, `.` and `_`
stay, a blank is a plus, and every other byte is a percent sign with two hexadecimal digits.
-/

namespace MeshLimiter.Http

def hexDigit (n : Nat) : Char :=
  Char.ofNat (if n < 10 then 48 + n else 55 + n)

def isFormSafe (b : UInt8) : Bool :=
  let c := Char.ofNat b.toNat
  c.isAlphanum || c = '*' || c = '-' || c = '.' || c = '_'

def formByte (b : UInt8) : List Char :=
  if isFormSafe b then [Char.ofNat b.toNat]
  else if b = 32 then ['+']
  else ['%', hexDigit (b.toNat / 16), hexDigit (b.toNat % 16)]

def formText (text : String) : String :=
  String.ofList (text.toUTF8.toList.flatMap formByte)

def formPair (name value : String) : String :=
  formText name ++ "=" ++ formText value

end MeshLimiter.Http
