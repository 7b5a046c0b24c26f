import MeshLimiter.Http.Form
import MeshLimiter.Http.Status
import MeshLimiter.Json.Basic
/-!
# Requests and answers

What goes over the wire. The target of a request is a path, which may have parameters after it.
-/

namespace MeshLimiter.Http

/-- What a request asks for. -/
inductive Method where
  | get
  | post
  | put
  | patch
  | delete
deriving DecidableEq, Repr

def Method.name : Method → String
  | get => "GET"
  | post => "POST"
  | put => "PUT"
  | patch => "PATCH"
  | delete => "DELETE"

/-- A document that goes with a request. -/
structure Content where
  type : String
  body : Json
deriving DecidableEq, Repr

/-- A request. -/
structure Request where
  method : Method
  target : String
  content : Option Content := none
deriving DecidableEq, Repr

/-- An answer. -/
structure Response where
  status : Status
  body : String
deriving DecidableEq, Repr

/-- The parameters of a target, each after an ampersand. -/
def parameters (ps : List (String × String)) : String :=
  "?" ++ String.join (ps.map fun (name, value) => "&" ++ formPair name value)

/-- Whether a character may stand in the path of a target. -/
def isPathChar (c : Char) : Bool :=
  let n := c.toNat
  n = 0x21 || n = 0x22 || (0x24 ≤ n && n ≤ 0x3B) || n = 0x3D || (0x40 ≤ n && n ≤ 0x5F) || 0x61 ≤ n

/-- Whether a character may stand in the parameters of a target. -/
def isParameterChar (c : Char) : Bool :=
  let n := c.toNat
  n = 0x21 || (0x24 ≤ n && n ≤ 0x3B) || n = 0x3D || 0x3F ≤ n

/-- The target that a text names: what follows a number sign is dropped, and no blank, control or
other character that has to be encoded may stand in it. -/
def target? (text : String) : Option String :=
  let kept := text.toList.takeWhile (· ≠ '#')
  if (kept.takeWhile (· ≠ '?')).all isPathChar &&
    (kept.dropWhile (· ≠ '?')).all isParameterChar then
    some (String.ofList kept)
  else none

end MeshLimiter.Http
