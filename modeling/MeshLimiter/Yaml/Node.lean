import MeshLimiter.Yaml.Token
/-!
# Documents of YAML

The tree that the tokens of a document stand for. Anchors are numbered by how many names are known
before them, and an alias stands for a copy of the last node in the document whose anchor has the
number of its name. A text must hold exactly one document.
-/

namespace MeshLimiter.Yaml

/-- A node of a document. -/
inductive Node where
  | scalar (text : String) (style : ScalarStyle) (tag : Option String)
  | sequence (items : List Node)
  | mapping (entries : List (Node × Node))
  /-- The node whose anchor has a number. -/
  | reference (number : Nat)
deriving Repr, Inhabited

namespace Node

/-- What stands where nothing is written. -/
def blank : Node := .scalar "" .plain none

/-- A node with a name. -/
structure Anchor where
  name : String
  number : Nat
  node : Node

/-- What has been read of a document. -/
structure Progress where
  tokens : List Token
  /-- The nodes with names, the one that begins last first. -/
  anchors : List Anchor := []
  /-- What the handles of tags stand for. -/
  handles : List (String × String) := []

namespace Progress

def next? (p : Progress) : Option Token :=
  p.tokens.head?

def skip (p : Progress) : Progress :=
  { p with tokens := p.tokens.tail }

/-- Whether the next token is one of some, none standing for the end. -/
def isAt (p : Progress) (ts : List Token) : Bool :=
  p.next?.any fun t => ts.contains t

/-- The handles that need no declaration. -/
def standardHandles : List (String × String) :=
  [("!", "!"), ("!!", "tag:yaml.org,2002:")]

def fullTag? (p : Progress) (handle suffix : String) : Option String :=
  if handle.isEmpty then some suffix
  else ((p.handles ++ standardHandles).find? fun h => h.1 == handle).map fun h => h.2 ++ suffix

/-- The anchor and tag before a node, in either order, each at most once. -/
def properties? (p : Progress) : Option (Option String × Option String × Progress) :=
  match p.tokens with
  | .anchor a :: .tag h s :: rest =>
    (p.fullTag? h s).map fun t => (some a, some t, { p with tokens := rest })
  | .anchor a :: rest => some (some a, none, { p with tokens := rest })
  | .tag h s :: .anchor a :: rest =>
    (p.fullTag? h s).map fun t => (some a, some t, { p with tokens := rest })
  | .tag h s :: rest => (p.fullTag? h s).map fun t => (none, some t, { p with tokens := rest })
  | _ => some (none, none, p)

def nameCount (p : Progress) : Nat :=
  (p.anchors.map Anchor.name).eraseDups.length

/-- Gives a name to a node that is still to be read. -/
def declare (p : Progress) (anchor : Option String) : Progress :=
  match anchor with
  | some name => { p with anchors := { name, number := p.nameCount, node := blank } :: p.anchors }
  | none => p

/-- Fills in the node of a name that was given when `before` names were. -/
def define (p : Progress) (anchor : Option String) (before : Nat) (node : Node) : Progress :=
  match anchor with
  | some _ =>
    { p with anchors := p.anchors.modify (p.anchors.length - 1 - before) ({ · with node }) }
  | none => p

end Progress

/-- A scalar with its tag; the mark that stands for no tag in particular is none. -/
def ofScalar (text : String) (style : ScalarStyle) (tag : Option String) : Node :=
  .scalar text style (tag.filter fun t => t != "!" && !t.isEmpty)

mutual

/-- A node. Collections by indentation need `block`; a list without indentation of its own needs
`unindented`. -/
def read? : (fuel : Nat) → (block unindented : Bool) → Progress → Option (Node × Progress)
  | 0, _, _, _ => none
  | fuel + 1, block, unindented, p =>
    match p.next? with
    | some (.alias a) =>
      (p.anchors.find? (·.name == a)).map fun x => (.reference x.number, p.skip)
    | _ =>
      match p.properties? with
      | none => none
      | some (anchor, tag, p) =>
        let before := p.anchors.length
        match content? fuel block unindented tag (p.declare anchor) with
        | some (n, p) => some (n, p.define anchor before n)
        | none =>
          let bare := match p.next? with
            | some t => (anchor.isSome || tag.isSome) && !begins block unindented t
            | none => anchor.isSome || tag.isSome
          if bare then
            let n := ofScalar "" .plain tag
            some (n, (p.declare anchor).define anchor before n)
          else none

/-- Whether a token begins what a node holds. -/
def begins : (block unindented : Bool) → Token → Bool
  | _, unindented, .blockEntry => unindented
  | block, _, .blockSequenceStart => block
  | block, _, .blockMappingStart => block
  | _, _, .scalar _ _ => true
  | _, _, .flowSequenceStart => true
  | _, _, .flowMappingStart => true
  | _, _, _ => false

/-- What a node holds, after its anchor and tag. -/
def content? : (fuel : Nat) → (block unindented : Bool) → Option String → Progress →
    Option (Node × Progress)
  | 0, _, _, _, _ => none
  | fuel + 1, block, unindented, tag, p =>
    match p.next? with
    | some (.scalar text style) => some (ofScalar text style tag, p.skip)
    | some .flowSequenceStart =>
      (flowItems? fuel true p.skip).map fun (items, p) => (.sequence items, p)
    | some .flowMappingStart =>
      (flowMembers? fuel true p.skip).map fun (members, p) => (.mapping members, p)
    | some .blockEntry =>
      if unindented then (listItems? fuel p).map fun (items, p) => (.sequence items, p) else none
    | some .blockSequenceStart =>
      if block then (blockItems? fuel p.skip).map fun (items, p) => (.sequence items, p) else none
    | some .blockMappingStart =>
      if block then (blockMembers? fuel p.skip).map fun (members, p) => (.mapping members, p)
      else none
    | _ => none

/-- A node, or nothing written before one of some tokens or the end. -/
def readOr? : (fuel : Nat) → (block unindented : Bool) → List Token → Progress →
    Option (Node × Progress)
  | 0, _, _, _, _ => none
  | fuel + 1, block, unindented, ends, p =>
    if p.isAt ends then some (blank, p) else read? fuel block unindented p

/-- The items of an indented list, up to its end. -/
def blockItems? : (fuel : Nat) → Progress → Option (List Node × Progress)
  | 0, _ => none
  | fuel + 1, p =>
    match p.next? with
    | some .blockEntry =>
      match readOr? fuel true false [.blockEntry, .blockEnd] p.skip with
      | none => none
      | some (n, p) => (blockItems? fuel p).map fun (ns, p) => (n :: ns, p)
    | some .blockEnd => some ([], p.skip)
    | _ => none

/-- The items of a list that is no deeper than the key it belongs to. -/
def listItems? : (fuel : Nat) → Progress → Option (List Node × Progress)
  | 0, _ => none
  | fuel + 1, p =>
    match p.next? with
    | some .blockEntry =>
      match readOr? fuel true false [.blockEntry, .key, .value, .blockEnd] p.skip with
      | none => none
      | some (n, p) => (listItems? fuel p).map fun (ns, p) => (n :: ns, p)
    | _ => some ([], p)

/-- The entries of an indented mapping, up to its end. -/
def blockMembers? : (fuel : Nat) → Progress → Option (List (Node × Node) × Progress)
  | 0, _ => none
  | fuel + 1, p =>
    match p.next? with
    | some .key =>
      match readOr? fuel true true [.key, .value, .blockEnd] p.skip with
      | none => none
      | some (k, p) => blockValue? fuel k p
    | some .blockEnd => some ([], p.skip)
    | _ => none

/-- The value of a key of an indented mapping, and the entries after it. -/
def blockValue? : (fuel : Nat) → Node → Progress → Option (List (Node × Node) × Progress)
  | 0, _, _ => none
  | fuel + 1, k, p =>
    match p.next? with
    | some .value =>
      match readOr? fuel true true [.key, .value, .blockEnd] p.skip with
      | none => none
      | some (v, p) => (blockMembers? fuel p).map fun (ms, p) => ((k, v) :: ms, p)
    | _ => (blockMembers? fuel p).map fun (ms, p) => ((k, blank) :: ms, p)

/-- The items of a list between brackets; before each but the first stands a comma. -/
def flowItems? : (fuel : Nat) → (first : Bool) → Progress → Option (List Node × Progress)
  | 0, _, _ => none
  | fuel + 1, first, p =>
    match p.next? with
    | some .flowSequenceEnd => some ([], p.skip)
    | t =>
      if !first && t != some .flowEntry then none
      else
        let p := if first then p else p.skip
        match p.next? with
        | some .flowSequenceEnd => some ([], p.skip)
        | some .key =>
          match pair? fuel p.skip with
          | none => none
          | some (n, p) => (flowItems? fuel false p).map fun (ns, p) => (n :: ns, p)
        | _ =>
          match read? fuel false false p with
          | none => none
          | some (n, p) => (flowItems? fuel false p).map fun (ns, p) => (n :: ns, p)

/-- A key and a value as an item between brackets: a mapping of one entry. -/
def pair? : (fuel : Nat) → Progress → Option (Node × Progress)
  | 0, _ => none
  | fuel + 1, p =>
    let ends : List Token := [.value, .flowEntry, .flowSequenceEnd]
    let key? := if p.isAt ends then some (blank, p.skip) else read? fuel false false p
    match key? with
    | none => none
    | some (k, p) =>
      match p.next? with
      | some .value =>
        (readOr? fuel false false [.flowEntry, .flowSequenceEnd] p.skip).map fun (v, p) =>
          (.mapping [(k, v)], p)
      | _ => some (.mapping [(k, blank)], p)

/-- The entries of a mapping between braces; before each but the first stands a comma. -/
def flowMembers? : (fuel : Nat) → (first : Bool) → Progress →
    Option (List (Node × Node) × Progress)
  | 0, _, _ => none
  | fuel + 1, first, p =>
    match p.next? with
    | some .flowMappingEnd => some ([], p.skip)
    | t =>
      if !first && t != some .flowEntry then none
      else
        let p := if first then p else p.skip
        match p.next? with
        | some .flowMappingEnd => some ([], p.skip)
        | some .key =>
          match readOr? fuel false false [.value, .flowEntry, .flowMappingEnd] p.skip with
          | none => none
          | some (k, p) => flowValue? fuel k p
        | _ =>
          match read? fuel false false p with
          | none => none
          | some (k, p) => (flowMembers? fuel false p).map fun (ms, p) => ((k, blank) :: ms, p)

/-- The value of a key between braces, and the entries after it. -/
def flowValue? : (fuel : Nat) → Node → Progress → Option (List (Node × Node) × Progress)
  | 0, _, _ => none
  | fuel + 1, k, p =>
    match p.next? with
    | some .value =>
      match readOr? fuel false false [.flowEntry, .flowMappingEnd] p.skip with
      | none => none
      | some (v, p) => (flowMembers? fuel false p).map fun (ms, p) => ((k, v) :: ms, p)
    | _ => (flowMembers? fuel false p).map fun (ms, p) => ((k, blank) :: ms, p)

end

mutual

/-- The node with every reference replaced by what `find` gives for its number, if anything. -/
def substitute (find : Nat → Option Node) : Node → Node
  | scalar text style tag => scalar text style tag
  | sequence items => sequence (substituteItems find items)
  | mapping entries => mapping (substituteEntries find entries)
  | reference number => (find number).getD (reference number)

/-- `substitute` for the items of a list. -/
def substituteItems (find : Nat → Option Node) : List Node → List Node
  | [] => []
  | n :: ns => substitute find n :: substituteItems find ns

/-- `substitute` for the entries of a mapping. -/
def substituteEntries (find : Nat → Option Node) : List (Node × Node) → List (Node × Node)
  | [] => []
  | (k, v) :: ms => (substitute find k, substitute find v) :: substituteEntries find ms

end

/-- The node with a number among anchors, the last first. -/
def target? (anchors : List Anchor) (number : Nat) : Option Node :=
  (anchors.find? (·.number == number)).map Anchor.node

/-- The anchors with the references in their nodes replaced in some rounds. With as many rounds as
anchors no reference is left but those in nodes that contain themselves. -/
def resolved (anchors : List Anchor) : (rounds : Nat) → List Anchor
  | 0 => anchors
  | rounds + 1 =>
    let known := resolved anchors rounds
    anchors.map fun a => { a with node := a.node.substitute (target? known) }

/-- The node with the references replaced. -/
def resolve (anchors : List Anchor) (n : Node) : Node :=
  n.substitute (target? (resolved anchors anchors.length))

/-- The directives before a document: at most one version, which is 1.1 or 1.2, and each handle at
most once. -/
def directives? : (seen : Bool) → List Token → List (String × String) →
    Option (List Token × List (String × String))
  | seen, .version major minor :: ts, hs =>
    if seen || major != 1 || (minor != 1 && minor != 2) then none else directives? true ts hs
  | seen, .tagHandle h lead :: ts, hs =>
    if hs.any fun x => x.1 == h then none else directives? seen ts (hs ++ [(h, lead)])
  | _, ts, hs => some (ts, hs)

def isDirective : Token → Bool
  | .version _ _ => true
  | .tagHandle _ _ => true
  | _ => false

/-- The document that tokens stand for; nothing may follow it but marks of its end. -/
def ofTokens? (ts : List Token) : Option Node := do
  let fuel := 4 * ts.length + 8
  let (n, p) ←
    match ts with
    | [] => none
    | t :: _ =>
      if isDirective t || t == .documentStart then do
        let (ts, handles) ← directives? false ts []
        match ts with
        | .documentStart :: rest =>
          let p : Progress := { tokens := rest, handles }
          let ended := rest.isEmpty || rest.head?.any isDirective
            || p.isAt [.documentStart, .documentEnd]
          if ended then some (blank, p) else read? fuel true false p
        | _ => none
      else read? fuel true false { tokens := ts }
  if p.tokens.all (· == .documentEnd) then some (n.resolve p.anchors) else none

def ofText? (text : String) : Option Node :=
  (Token.ofText? text).bind ofTokens?

end Node

end MeshLimiter.Yaml
