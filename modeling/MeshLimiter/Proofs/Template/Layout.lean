import MeshLimiter.Proofs.Text.Search
import MeshLimiter.Template
/-!
# Layouts of templates

A template is laid out as literals and references in turn. A reference names its key between the two
marks, and a key may end in any number of closing braces, since the last two of a run are the mark.
Rendering reads the template back in this way, whatever stands in it, and puts the values in without
reading them.

* **`Reference`**, **`Layout`**: a placeholder that names a key, and a template that is made of
  such;
* **`Broken`**: what follows an opening mark where nothing can be put in, and the error that this
  is;
* **`Layout.render_text`**, **`Broken.render_eq`**: a layout is rendered to its values, unless a
  placeholder behind it is broken, which decides the error;
* **`exists_layout`**: every template is of one of these two forms;
* **`rounds_eq`**: read round by round, every template comes to an end;
* **`render_follows_layout`**: so rendering puts values in the place of references, once.
-/

namespace MeshLimiter

namespace Template

open Text (cutAt?)

variable {lead inner after rest : List Char}

/-! ## Where placeholders begin and end

The opening mark is the first one, and the closing mark the end of the first run of braces. -/

/-- What stands before a placeholder: the opening mark is not in it, not even its first brace at the
end. -/
def Leads (lead : List Char) : Prop :=
  ¬ openMark <:+: lead ∧ lead.getLast? ≠ some '\x7b'

/-- The closing mark stands nowhere but in the run of closing braces at the end. -/
def ClosesLate (cs : List Char) : Prop :=
  ¬ closeMark <:+: cs.rdropWhile (· = '\x7d')

instance : DecidablePred Leads := fun _ => inferInstanceAs (Decidable (_ ∧ _))

instance : DecidablePred ClosesLate := fun _ => inferInstanceAs (Decidable (¬ _))

/-- The text is cut at the first opening mark. -/
theorem cut_open_iff {cs : List Char} :
    cutAt? openMark cs = some (lead, after) ↔ cs = lead ++ (openMark ++ after) ∧ Leads lead := by
  rw [Text.cutAt?_eq_some_iff (by decide)]
  refine and_congr_right fun _ => ?_
  show ¬ ['\x7b', '\x7b'] <:+: lead ++ ['\x7b'] ↔ _
  rw [Text.pair_infix_append]
  simp [Leads, openMark, Text.not_pair_infix_singleton]

/-- Without a closing mark there is no cut. -/
theorem cutPlaceholder?_eq_none_iff {cs : List Char} :
    cutPlaceholder? cs = none ↔ ¬ closeMark <:+: cs := by
  rw [cutPlaceholder?, Option.map_eq_none_iff, Text.cutAt?_eq_none_iff]

/-- Braces before a mark of braces may as well stand behind it. -/
theorem braces_comm (n : Nat) (cs : List Char) :
    List.replicate n '\x7d' ++ (closeMark ++ cs) = closeMark
      ++ (List.replicate n '\x7d' ++ cs) := by
  show List.replicate n '\x7d' ++ (List.replicate 2 '\x7d' ++ cs) = List.replicate 2 '\x7d' ++ _
  rw [← List.append_assoc, ← List.append_assoc, List.replicate_append_replicate,
    List.replicate_append_replicate, Nat.add_comm]

/-- A run of braces ends where they end. -/
theorem takeWhile_brace_append (n : Nat) (hrest : rest.head? ≠ some '\x7d') :
    (List.replicate n '\x7d' ++ rest).takeWhile (· = '\x7d') = List.replicate n '\x7d' ∧
      (List.replicate n '\x7d' ++ rest).dropWhile (· = '\x7d') = rest := by
  have hall : ∀ c ∈ List.replicate n '\x7d', decide (c = '\x7d') = true := fun c hc => by
    simpa using List.eq_of_mem_replicate hc
  rw [List.takeWhile_append_of_pos hall, List.dropWhile_append_of_pos hall]
  cases rest with
  | nil => simp
  | cons c cs =>
    have hc : c ≠ '\x7d' := fun hc => hrest (congrArg some hc)
    simp [hc]

/-- A text ends with a run of closing braces, if an empty one. -/
theorem exists_run (cs : List Char) : ∃ body n, cs = body ++ List.replicate n '\x7d' ∧
    cs.rdropWhile (· = '\x7d') = body ∧ body.getLast? ≠ some '\x7d' := by
  refine ⟨_, (cs.rtakeWhile (· = '\x7d')).length, ?_, rfl, fun hlast => ?_⟩
  · have hbraces : ∀ c ∈ cs.rtakeWhile (· = '\x7d'), c = '\x7d' := fun c hc => by
      simpa using List.mem_rtakeWhile_imp hc
    rw [← List.eq_replicate_of_mem hbraces, List.rdropWhile_append_rtakeWhile]
  · obtain ⟨hne, hbrace⟩ := List.mem_getLast?_eq_getLast hlast
    exact List.rdropWhile_last_not _ _ hne (decide_eq_true hbrace.symm)

/-- A placeholder ends with the last two of its closing braces; those before them are of the key. -/
theorem cutPlaceholder?_eq_some_iff {cs : List Char} : cutPlaceholder? cs = some (inner, rest) ↔
    cs = inner ++ (closeMark ++ rest) ∧ ClosesLate inner ∧ rest.head? ≠ some '\x7d' := by
  have hmark (body : List Char) : ¬ closeMark <:+: body ++ closeMark.dropLast ↔
      ¬ closeMark <:+: body ∧ body.getLast? ≠ some '\x7d' := by
    show ¬ ['\x7d', '\x7d'] <:+: body ++ ['\x7d'] ↔ _
    rw [Text.pair_infix_append]
    simp [closeMark, Text.not_pair_infix_singleton]
  rw [cutPlaceholder?, Option.map_eq_some_iff]
  constructor
  · -- braces that follow the first mark are moved before it, to the key
    rintro ⟨⟨body, after⟩, hcut, heq⟩
    obtain ⟨rfl, hbody⟩ := (Text.cutAt?_eq_some_iff (by decide)).1 hcut
    have hbraces : ∀ c ∈ after.takeWhile (· = '\x7d'), c = '\x7d' := fun c hc => by
      simpa using List.mem_takeWhile_imp hc
    have hrun := List.eq_replicate_of_mem hbraces
    have hafter : after.takeWhile (· = '\x7d') ++ after.dropWhile (· = '\x7d') = after :=
      List.takeWhile_append_dropWhile
    obtain ⟨rfl, rfl⟩ := Prod.mk.inj heq
    refine ⟨?_, ?_, fun hhead => ?_⟩
    · rw [List.append_assoc, hrun, braces_comm, ← hrun, hafter]
    · rw [ClosesLate, Text.rdropWhile_append_of_pos fun c hc => decide_eq_true (hbraces c hc)]
      intro hstands
      exact ((hmark body).1 hbody).1 (hstands.trans (List.rdropWhile_prefix _ _).isInfix)
    · have hnot := List.head?_dropWhile_not (· = '\x7d') after
      rw [hhead] at hnot
      simp at hnot
  · -- the key is a body and a run of braces, of which the first two are found
    rintro ⟨rfl, hinner, hrest⟩
    obtain ⟨body, n, rfl, hbody, hlast⟩ := exists_run inner
    rw [ClosesLate, hbody] at hinner
    refine ⟨(body, List.replicate n '\x7d' ++ rest), ?_, ?_⟩
    · rw [Text.cutAt?_eq_some_iff (by decide), hmark, List.append_assoc, braces_comm]
      exact ⟨rfl, hinner, hlast⟩
    · obtain ⟨htake, hdrop⟩ := takeWhile_brace_append n hrest
      simp only [htake, hdrop]

/-- A text has no opening mark, or its first one is not followed by a closing mark, or it is. -/
theorem scan_cases (cs : List Char) : ¬ openMark <:+: cs ∨
    ∃ lead after, cs = lead ++ (openMark ++ after) ∧ Leads lead ∧ (¬ closeMark <:+: after ∨
      ∃ inner rest, after = inner ++ (closeMark ++ rest) ∧ ClosesLate inner ∧
        rest.head? ≠ some '\x7d') := by
  cases hopen : cutAt? openMark cs with
  | none => exact .inl (Text.cutAt?_eq_none_iff.1 hopen)
  | some parts =>
    obtain ⟨hcs, hlead⟩ := cut_open_iff.1 hopen
    refine .inr ⟨parts.1, parts.2, hcs, hlead, ?_⟩
    cases hclose : cutPlaceholder? parts.2 with
    | none => exact .inl (cutPlaceholder?_eq_none_iff.1 hclose)
    | some cut => exact .inr ⟨cut.1, cut.2, cutPlaceholder?_eq_some_iff.1 hclose⟩

/-! ## The pieces of a text

A text is cut into literals and placeholders, up to one that does not end. -/

/-- The equation of `pieces`, without the facts that its recursion rests on. -/
theorem pieces_eq (cs : List Char) : pieces cs =
    match cutAt? openMark cs with
    | none => [.literal cs]
    | some (lead, after) =>
      match cutPlaceholder? after with
      | none => [.literal lead, .unterminated]
      | some (inner, rest) => .literal lead :: .placeholder inner :: pieces rest := by
  rw [pieces]
  split
  · next hopen => simp only [hopen]
  · next hopen =>
    simp only [hopen]
    split
    · next hclose => simp only [hclose]
    · next hclose => simp only [hclose]

/-- A text without an opening mark is one piece. -/
theorem pieces_plain {cs : List Char} (h : ¬ openMark <:+: cs) : pieces cs = [.literal cs] := by
  rw [pieces_eq, Text.cutAt?_eq_none_iff.2 h]

/-- A placeholder that does not end is the last piece. -/
theorem pieces_unterminated (hlead : Leads lead) (h : ¬ closeMark <:+: after) :
    pieces (lead ++ (openMark ++ after)) = [.literal lead, .unterminated] := by
  rw [pieces_eq, cut_open_iff.2 ⟨rfl, hlead⟩]
  simp only [cutPlaceholder?_eq_none_iff.2 h]

/-- A literal, a placeholder, and the pieces of the rest. -/
theorem pieces_placeholder (hlead : Leads lead) (hinner : ClosesLate inner)
    (hrest : rest.head? ≠ some '\x7d') :
    pieces (lead ++ (openMark ++ (inner ++ (closeMark ++ rest))))
      = .literal lead :: .placeholder inner :: pieces rest := by
  rw [pieces_eq, cut_open_iff.2 ⟨rfl, hlead⟩]
  simp only [cutPlaceholder?_eq_some_iff.2 ⟨rfl, hinner, hrest⟩]

/-! ## What a text is rendered to

Piece by piece, from the front. The first error is that of the text. -/

variable {whole : String} {m : Material}

/-- What a part of the template `whole` is rendered to. -/
def rendered (whole : String) (m : Material) (cs : List Char) : Except Error (List Char) :=
  ((pieces cs).mapM (Piece.render whole m)).map List.flatten

/-- The template is the whole of itself. -/
theorem render_eq (template : String) (m : Material) :
    render template m = (rendered template m template.toList).map String.ofList := by
  rw [render, rendered]
  cases (pieces template.toList).mapM (Piece.render template m) <;> rfl

/-- A text without placeholders is rendered to itself. -/
theorem rendered_plain {cs : List Char} (h : ¬ openMark <:+: cs) :
    rendered whole m cs = .ok cs := by
  rw [rendered, pieces_plain h]
  show Except.ok [cs].flatten = _
  rw [List.flatten_singleton]

/-- A placeholder that does not end is an error. -/
theorem rendered_unterminated (hlead : Leads lead) (h : ¬ closeMark <:+: after) :
    rendered whole m (lead ++ (openMark ++ after)) = .error (.unterminated whole) := by
  rw [rendered, pieces_unterminated hlead h]
  rfl

/-- The literal, the value, and what the rest is rendered to. -/
theorem rendered_placeholder (hlead : Leads lead) (hinner : ClosesLate inner)
    (hrest : rest.head? ≠ some '\x7d') :
    rendered whole m (lead ++ (openMark ++ (inner ++ (closeMark ++ rest)))) =
      match placeholderKey inner >>= lookup m with
      | .error e => .error e
      | .ok value => (rendered whole m rest).map fun text => lead ++ (value.toList ++ text) := by
  rw [rendered, pieces_placeholder hlead hinner hrest, List.mapM_cons, List.mapM_cons]
  have hvalue : Piece.render whole m (.placeholder inner)
      = (placeholderKey inner >>= lookup m).map String.toList := by
    rw [Piece.render]
    cases placeholderKey inner with
    | error e => rfl
    | ok key =>
      show (lookup m key >>= fun value => pure value.toList) = (lookup m key).map String.toList
      cases lookup m key <;> rfl
  -- the first piece that fails decides, so a key without a value hides what follows
  rw [hvalue, rendered]
  cases placeholderKey inner >>= lookup m with
  | error e => rfl
  | ok value => cases (pieces rest).mapM (Piece.render whole m) <;> rfl

/-- The same where the placeholder names a key. -/
theorem rendered_named {key : String} (hlead : Leads lead) (hinner : ClosesLate inner)
    (hrest : rest.head? ≠ some '\x7d') (hkey : placeholderKey inner = .ok key) :
    rendered whole m (lead ++ (openMark ++ (inner ++ (closeMark ++ rest)))) =
      match lookup m key with
      | .error e => .error e
      | .ok value => (rendered whole m rest).map fun text => lead ++ (value.toList ++ text) := by
  rw [rendered_placeholder hlead hinner hrest, hkey]
  rfl

/-! ## References

What stands between the marks is trimmed, and the key follows a point. -/

/-- A placeholder that names a key: a point and the key between the two marks, with blanks around
them. The key may end in closing braces, and if two stand side by side in it, its end has to be next
to the mark. -/
structure Reference where
  before : List Char
  key : String
  behind : List Char
  before_blank : ∀ c ∈ before, Text.isBlank c = true
  behind_blank : ∀ c ∈ behind, Text.isBlank c = true
  key_ne : key.toList ≠ []
  key_last : ∀ c ∈ key.toList.getLast?, Text.isBlank c = false
  key_closes : ClosesLate key.toList
  behind_eq : closeMark <:+: key.toList → behind = []

namespace Reference

/-- What stands between the marks. -/
def inside (r : Reference) : List Char :=
  r.before ++ ('.' :: r.key.toList ++ r.behind)

/-- As it is written. -/
def text (r : Reference) : List Char :=
  openMark ++ (r.inside ++ closeMark)

theorem blank_of_mem_nil : ∀ c ∈ ([] : List Char), Text.isBlank c = true :=
  List.forall_mem_nil _

/-- A reference with the same blanks at both ends. -/
def spaced (blanks : List Char) (key : String) (hblanks : ∀ c ∈ blanks, Text.isBlank c = true)
    (hkey : ∃ lead c, key.toList = lead ++ [c] ∧ Text.isBlank c = false)
    (hcloses : ClosesLate key.toList)
    (hmark : closeMark <:+: key.toList → blanks = []) : Reference where
  before := blanks
  key := key
  behind := blanks
  before_blank := hblanks
  behind_blank := hblanks
  key_ne := by
    obtain ⟨lead, c, hkey, -⟩ := hkey
    simp [hkey]
  key_last := by
    obtain ⟨lead, c, hkey, hc⟩ := hkey
    rw [hkey, List.getLast?_concat]
    rintro d ⟨⟩
    exact hc
  key_closes := hcloses
  behind_eq := hmark

end Reference

/-- Blanks behind a key keep its braces from the mark. -/
theorem closesLate_inside_iff {before key behind : List Char}
    (hbefore : ∀ c ∈ before, Text.isBlank c = true)
    (hbehind : ∀ c ∈ behind, Text.isBlank c = true) :
    ClosesLate (before ++ ('.' :: key ++ behind)) ↔
      ClosesLate key ∧ (closeMark <:+: key → behind = []) := by
  have hblank {c : Char} (hc : Text.isBlank c = true) : c ≠ '\x7d' := by
    rintro rfl
    exact absurd hc (by decide)
  -- blanks and the point are no braces, so they do not matter
  have hlead : ∀ c ∈ before ++ ['.'], c ≠ '\x7d' := by
    refine List.forall_mem_append.2 ⟨fun c hc => hblank (hbefore c hc), ?_⟩
    simp
  have hsplit : before ++ ('.' :: key ++ behind) = (before ++ ['.']) ++ (key ++ behind) := by simp
  have hbrace : '\x7d' ∉ before ++ ['.'] := fun hmem => hlead _ hmem rfl
  have hend : ∀ c ∈ (before ++ ['.']).getLast?, decide (c = '\x7d') = false := fun c hc =>
    decide_eq_false (hlead c (List.mem_of_getLast? hc))
  have hearly : ClosesLate (before ++ ('.' :: key ++ behind)) ↔ ClosesLate (key ++ behind) := by
    rw [hsplit, ClosesLate, Text.rdropWhile_append_of_neg hend]
    exact not_congr (Text.pair_infix_append_left hbrace)
  rw [hearly]
  by_cases hnil : behind = []
  · simp [hnil]
  · -- blanks behind the key end the run of braces before the mark
    have hlast : ∀ c ∈ (key ++ behind).getLast?, decide (c = '\x7d') = false := by
      rw [List.getLast?_append_of_ne_nil key hnil]
      exact fun c hc => decide_eq_false (hblank (hbehind c (List.mem_of_getLast? hc)))
    have hnot : ClosesLate (key ++ behind) ↔ ¬ closeMark <:+: key := by
      rw [ClosesLate, Text.rdropWhile_eq_self hlast]
      exact not_congr (Text.pair_infix_append_right fun hmem => hblank (hbehind _ hmem) rfl)
    rw [hnot]
    constructor
    · exact fun h => ⟨fun hstands => h (hstands.trans (List.rdropWhile_prefix _ _).isInfix),
        fun hstands => absurd hstands h⟩
    · exact fun h hstands => hnil (h.2 hstands)

namespace Reference

variable (r : Reference)

theorem closesLate_inside : ClosesLate r.inside :=
  (closesLate_inside_iff r.before_blank r.behind_blank).2 ⟨r.key_closes, r.behind_eq⟩

/-- Without its blanks it is the point and the key. -/
theorem trim_inside : Text.trim r.inside = '.' :: r.key.toList := by
  refine Text.trim_append r.before_blank r.behind_blank ?_ ?_ (List.cons_ne_nil _ _)
  · rintro c ⟨⟩
    decide
  · intro c hc
    rw [List.getLast?_cons_of_ne_nil r.key_ne] at hc
    exact r.key_last c hc

/-- So the key is read back. -/
theorem placeholderKey_inside : placeholderKey r.inside = .ok r.key := by
  obtain ⟨c, cs, hkey⟩ := List.exists_cons_of_ne_nil r.key_ne
  rw [placeholderKey, r.trim_inside, hkey]
  show Except.ok (String.ofList (c :: cs)) = _
  rw [← hkey, String.ofList_toList]

/-- Whatever begins with a point and goes on, blanks aside, is a reference. -/
theorem exists_eq {cs : List Char} {c : Char} (hinner : ClosesLate inner)
    (h : Text.trim inner = '.' :: c :: cs) : ∃ r : Reference, r.inside = inner := by
  obtain ⟨key, hkey⟩ : ∃ key : String, key.toList = c :: cs := ⟨_, String.toList_ofList⟩
  obtain ⟨before, behind, heq, hbefore, hbehind, hlast⟩ := Text.exists_eq_trim inner
  have hne : key.toList ≠ [] := by
    rw [hkey]
    exact List.cons_ne_nil c cs
  rw [h, ← hkey] at heq hlast
  rw [List.getLast?_cons_of_ne_nil hne] at hlast
  rw [heq] at hinner
  obtain ⟨hcloses, hbehindNil⟩ := (closesLate_inside_iff hbefore hbehind).1 hinner
  exact ⟨⟨before, key, behind, hbefore, hbehind, hne, hlast, hcloses, hbehindNil⟩, heq.symm⟩

/-- As it is written, mark by mark. -/
theorem text_append : r.text ++ rest = openMark ++ (r.inside ++ (closeMark ++ rest)) := by
  simp [text]

/-- A reference is rendered to the value of its key. -/
theorem rendered_eq {v : String} (hlead : Leads lead) (hrest : rest.head? ≠ some '\x7d')
    (h : lookup m r.key = .ok v) : rendered whole m (lead ++ (r.text ++ rest)) =
      (rendered whole m rest).map fun text => lead ++ (v.toList ++ text) := by
  rw [text_append, rendered_named hlead r.closesLate_inside hrest r.placeholderKey_inside, h]

/-- A reference that cannot be looked up is an error. -/
theorem rendered_eq_error {e : Error} (hlead : Leads lead) (hrest : rest.head? ≠ some '\x7d')
    (h : lookup m r.key = .error e) : rendered whole m (lead ++ (r.text ++ rest)) = .error e := by
  rw [text_append, rendered_named hlead r.closesLate_inside hrest r.placeholderKey_inside, h]

end Reference

/-! ## Layouts

Each literal leads up to its reference, and a literal behind a reference does not begin with a
brace, which would belong to the mark. -/

/-- Literals with the references that follow them, in turn, and a last literal. -/
def inTurn (write : Reference → List Char) (parts : List (List Char × Reference))
    (last : List Char) :
    List Char :=
  parts.flatMap (fun part => part.1 ++ write part.2) ++ last

/-- They are laid out so that they are told apart: the opening mark is in no literal, nor does a
literal reach into the mark of a reference next to it. -/
@[mk_iff]
structure WellLaid (parts : List (List Char × Reference)) (last : List Char) : Prop where
  no_mark : ∀ lit ∈ parts.map Prod.fst ++ [last], ¬ openMark <:+: lit
  ends : ∀ lit ∈ parts.map Prod.fst, lit.getLast? ≠ some '\x7b'
  begins : ∀ lit ∈ (parts.map Prod.fst ++ [last]).tail, lit.head? ≠ some '\x7d'

/-- A template that is made of literals and references. -/
structure Layout where
  parts : List (List Char × Reference)
  last : List Char
  wellLaid : WellLaid parts last

namespace Layout

/-- As it is written. -/
def text (l : Layout) : List Char :=
  inTurn Reference.text l.parts l.last

/-- As it is rendered, where values are given for keys. -/
def filled (value : String → String) (l : Layout) : List Char :=
  inTurn (fun r => (value r.key).toList) l.parts l.last

/-- Its keys have the given values in a material, and none is a group. -/
def Stored (l : Layout) (m : Material) (value : String → String) : Prop :=
  ∀ part ∈ l.parts, m.isGroup part.2.key = false ∧ m.get? part.2.key = some (value part.2.key)

end Layout

variable {parts : List (List Char × Reference)} {last more : List Char} {r : Reference}
  {value : String → String} {write : Reference → List Char}

@[simp]
theorem inTurn_nil : inTurn write [] last = last := rfl

@[simp]
theorem inTurn_cons :
    inTurn write ((lead, r) :: parts) last = lead ++ (write r ++ inTurn write parts last) := by
  simp [inTurn]

/-- What follows is added to the last literal. -/
theorem inTurn_append : inTurn write parts last ++ more = inTurn write parts (last ++ more) :=
  List.append_assoc ..

/-- Without references the literal has no opening mark. -/
theorem wellLaid_nil_iff : WellLaid [] last ↔ ¬ openMark <:+: last := by
  refine ⟨fun h => h.no_mark last (by simp), fun h => ⟨?_, ?_, ?_⟩⟩
  · simpa using h
  · simp
  · simp

theorem wellLaid_cons_iff : WellLaid ((lead, r) :: parts) last ↔
    Leads lead ∧ (∀ lit ∈ (parts.map Prod.fst ++ [last]).head?, lit.head? ≠ some '\x7d') ∧
      WellLaid parts last := by
  have hsplit : ∃ lit lits, parts.map Prod.fst ++ [last] = lit :: lits :=
    List.exists_cons_of_ne_nil (by simp)
  obtain ⟨lit, lits, hlits⟩ := hsplit
  simp only [wellLaid_iff, List.map_cons, List.cons_append, hlits, List.forall_mem_cons,
    List.tail_cons, List.head?_cons, Option.mem_some_iff, forall_eq', Leads]
  tauto

/-- What follows a reference does not begin with a closing brace. -/
theorem head?_inTurn_ne_iff (hmore : more.head? ≠ some '\x7d') :
    (inTurn Reference.text parts (last ++ more)).head? ≠ some '\x7d' ↔
      ∀ lit ∈ (parts.map Prod.fst ++ [last]).head?, lit.head? ≠ some '\x7d' := by
  have hlit (lit cs : List Char) (hcs : cs.head? ≠ some '\x7d') :
      (lit ++ cs).head? ≠ some '\x7d' ↔ lit.head? ≠ some '\x7d' := by
    cases lit with
    | nil => simp [hcs]
    | cons c lit => rfl
  cases parts with
  | nil => simpa using hlit last more hmore
  | cons part parts =>
    obtain ⟨lead, r⟩ := part
    rw [inTurn_cons]
    simpa using hlit lead (r.text ++ _) (by simp [Reference.text, openMark])

/-- A key is looked up if it has a value and is no group. -/
theorem lookup_eq_ok_iff {key v : String} :
    lookup m key = .ok v ↔ m.isGroup key = false ∧ m.get? key = some v := by
  unfold lookup
  cases m.isGroup key with
  | true => simp
  | false => cases m.get? key <;> simp

/-- Each reference is rendered to the value of its key, and the rest after it. -/
theorem rendered_inTurn (hparts : WellLaid parts last)
    (hstored : ∀ part ∈ parts, m.isGroup part.2.key = false ∧
      m.get? part.2.key = some (value part.2.key))
    (hmore : more.head? ≠ some '\x7d') :
    rendered whole m (inTurn Reference.text parts (last ++ more)) =
      (rendered whole m (last ++ more)).map (inTurn (fun r => (value r.key).toList) parts) := by
  -- literal by literal, from the front
  induction parts with
  | nil =>
    show _ = Except.map id _
    rw [Except.map_id]
    rfl
  | cons part parts ih =>
    obtain ⟨lead, r⟩ := part
    obtain ⟨hlead, hfirst, hparts⟩ := wellLaid_cons_iff.1 hparts
    obtain ⟨hhead, hstored⟩ := List.forall_mem_cons.1 hstored
    rw [inTurn_cons, r.rendered_eq hlead ((head?_inTurn_ne_iff hmore).2 hfirst)
      (lookup_eq_ok_iff.2 hhead), ih hparts hstored]
    cases rendered whole m (last ++ more) with
    | error e => rfl
    | ok text =>
      simp [Except.map]

/-- **A layout is rendered to its literals and values.** A value is put in as it is: braces in it
mean nothing. -/
theorem Layout.render_text {l : Layout} {template : String} (h : template.toList = l.text)
    (hstored : l.Stored m value) : render template m = .ok (String.ofList (l.filled value)) := by
  have hlast : ¬ openMark <:+: l.last ++ [] := by
    rw [List.append_nil]
    exact l.wellLaid.no_mark _ (List.mem_append_right _ List.mem_cons_self)
  have htext : l.text = inTurn Reference.text l.parts (l.last ++ []) := by
    rw [List.append_nil]
    rfl
  rw [render_eq, h, htext, rendered_inTurn l.wellLaid hstored (by simp), rendered_plain hlast,
    List.append_nil]
  rfl

/-! ## Broken placeholders

There are four ways in which a placeholder can be broken, each with its error. -/

/-- What follows the opening mark of a placeholder in whose place nothing can be put, and the error
that it is: the mark that closes it is missing, it is no reference, or its key is that of a group or
of nothing. -/
inductive Broken (template : String) (m : Material) : List Char → Error → Prop
  | unterminated {after : List Char} (h : ¬ closeMark <:+: after) :
      Broken template m after (.unterminated template)
  | malformed {inner rest : List Char} (hinner : ClosesLate inner)
      (hrest : rest.head? ≠ some '\x7d') (h : ∀ r : Reference, r.inside ≠ inner) :
      Broken template m (inner ++ (closeMark ++ rest))
        (.invalidPlaceholder (String.ofList (Text.trim inner)))
  | group (r : Reference) {rest : List Char} (hrest : rest.head? ≠ some '\x7d')
      (h : m.isGroup r.key = true) :
      Broken template m (r.inside ++ (closeMark ++ rest)) (.groupMetric r.key)
  | unknown (r : Reference) {rest : List Char} (hrest : rest.head? ≠ some '\x7d')
      (hgroup : m.isGroup r.key = false) (h : m.get? r.key = none) :
      Broken template m (r.inside ++ (closeMark ++ rest)) (.unknownMetric r.key)

/-- What is no reference has no key. -/
theorem placeholderKey_eq_error (h : ∀ r : Reference, r.inside ≠ inner)
    (hinner : ClosesLate inner) :
    placeholderKey inner = .error (.invalidPlaceholder (String.ofList (Text.trim inner))) := by
  unfold placeholderKey
  split
  · next htrim =>
    obtain ⟨r, hr⟩ := Reference.exists_eq hinner htrim
    exact absurd hr (h r)
  · rfl

/-- A placeholder is broken, or it is a reference to a value. -/
theorem broken_or_stored (h : ¬ closeMark <:+: after ∨
      ∃ inner rest, after = inner ++ (closeMark ++ rest) ∧ ClosesLate inner ∧
        rest.head? ≠ some '\x7d') :
    (∃ e, Broken whole m after e) ∨ ∃ (r : Reference) (v : String) (rest : List Char),
      m.isGroup r.key = false ∧ m.get? r.key = some v ∧ after = r.inside ++ (closeMark ++ rest) ∧
        rest.head? ≠ some '\x7d' := by
  rcases h with hclose | ⟨inner, rest, rfl, hinner, hrest⟩
  · exact .inl ⟨_, .unterminated hclose⟩
  by_cases href : ∃ r : Reference, r.inside = inner
  · obtain ⟨r, rfl⟩ := href
    cases hgroup : m.isGroup r.key with
    | true => exact .inl ⟨_, .group r hrest hgroup⟩
    | false =>
      cases hvalue : m.get? r.key with
      | none => exact .inl ⟨_, .unknown r hrest hgroup hvalue⟩
      | some v => exact .inr ⟨r, v, rest, hgroup, hvalue, rfl, hrest⟩
  · exact .inl ⟨_, .malformed hinner hrest (not_exists.1 href)⟩

/-- The error is that of the text. -/
theorem Broken.rendered_eq {e : Error} (h : Broken whole m after e) (hlead : Leads lead) :
    rendered whole m (lead ++ (openMark ++ after)) = .error e := by
  cases h with
  | unterminated h => exact rendered_unterminated hlead h
  | malformed hinner hrest h =>
    rw [rendered_placeholder hlead hinner hrest, placeholderKey_eq_error h hinner]
    rfl
  | group r hrest h =>
    rw [← r.text_append]
    exact r.rendered_eq_error hlead hrest (if_pos h)
  | unknown r hrest hgroup h =>
    rw [← r.text_append]
    refine r.rendered_eq_error hlead hrest ?_
    rw [lookup, hgroup, h]
    rfl

/-- **The leftmost broken placeholder decides the error.** -/
theorem Broken.render_eq {template : String} {l : Layout} {e : Error}
    (h : Broken template m after e)
    (htext : template.toList = l.text ++ (openMark ++ after)) (hstored : l.Stored m value)
    (hlast : Leads l.last) : render template m = .error e := by
  have hmore : (openMark ++ after).head? ≠ some '\x7d' := by simp [openMark]
  rw [Template.render_eq, htext, Layout.text, inTurn_append,
    rendered_inTurn l.wellLaid hstored hmore, h.rendered_eq hlast]
  rfl

/-- Every text begins with a layout whose values are there, and nothing comes after it or a broken
placeholder. -/
theorem exists_layout (whole : String) (m : Material) (cs : List Char) :
    ∃ (l : Layout) (value : String → String) (more : List Char), l.Stored m value ∧
      cs = l.text ++ more ∧
      (more = [] ∨ Leads l.last ∧ ∃ after e, Broken whole m after e ∧
        more = openMark ++ after) := by
  let value (key : String) : String := (m.get? key).getD ""
  suffices ∃ (l : Layout) (more : List Char), l.Stored m value ∧ cs = l.text ++ more ∧
      (more = [] ∨ Leads l.last ∧ ∃ after e, Broken whole m after e ∧ more = openMark ++ after) by
    obtain ⟨l, more, h⟩ := this
    exact ⟨l, value, more, h⟩
  -- the induction is on the length: what follows a reference is shorter
  induction hlength : cs.length using Nat.strong_induction_on generalizing cs with
  | _ n ih =>
    rcases scan_cases cs with hplain | ⟨lead, after, rfl, hlead, hafter⟩
    · exact ⟨⟨[], cs, wellLaid_nil_iff.2 hplain⟩, [], List.forall_mem_nil _,
        (List.append_nil cs).symm, .inl rfl⟩
    · rcases broken_or_stored hafter with ⟨e, he⟩ | ⟨r, v, rest, hgroup, hv, rfl, hrest⟩
      · exact ⟨⟨[], lead, wellLaid_nil_iff.2 hlead.1⟩, openMark ++ after,
          List.forall_mem_nil _, rfl, .inr ⟨hlead, after, e, he, rfl⟩⟩
      · have hshort : rest.length < n := by
          rw [← hlength]
          simp [openMark]
          omega
        obtain ⟨l, more, hstored, rfl, hmore⟩ := ih rest.length hshort rest rfl
        have hhead : more.head? ≠ some '\x7d' := by
          rcases hmore with rfl | ⟨-, after, e, -, rfl⟩
          · simp
          · simp [openMark]
        have hfirst := (head?_inTurn_ne_iff hhead).1 (by rwa [← inTurn_append])
        refine ⟨⟨(lead, r) :: l.parts, l.last, wellLaid_cons_iff.2 ⟨hlead, hfirst, l.wellLaid⟩⟩,
          more, List.forall_mem_cons.2 ⟨⟨hgroup, ?_⟩, hstored⟩, ?_, hmore⟩
        · show _ = some ((m.get? r.key).getD "")
          rw [hv, Option.getD_some]
        · simp [Layout.text, Reference.text]

/-! ## Round by round

A round takes one placeholder off, with at least its four braces. So there are fewer rounds than
characters. -/

/-- A template read in rounds: each puts out what stands before the next placeholder, and its value.
There is no answer if the rounds are used up. -/
def rounds (template : String) (m : Material) :
    Nat → List Char → List Char → Option (Except Error String)
  | 0, _, _ => none
  | n + 1, out, rest =>
    match cutAt? openMark rest with
    | none => some (.ok (String.ofList (out ++ rest)))
    | some (lead, after) =>
      match cutPlaceholder? after with
      | none => some (.error (.unterminated template))
      | some (inner, rest) =>
        match placeholderKey inner >>= lookup m with
        | .error e => some (.error e)
        | .ok value => rounds template m n (out ++ (lead ++ value.toList)) rest

/-- Enough rounds render the text. -/
theorem rounds_eq_rendered (template : String) (m : Material) {n : Nat} {cs : List Char}
    (h : cs.length < 4 * n) (out : List Char) : rounds template m n out cs =
      some ((rendered template m cs).map fun text => String.ofList (out ++ text)) := by
  induction n generalizing cs out with
  | zero => exact absurd h (Nat.not_lt_zero _)
  | succ n ih =>
    rw [rounds]
    rcases scan_cases cs with hplain |
      ⟨lead, after, rfl, hlead, hclose | ⟨inner, rest, rfl, hinner, hrest⟩⟩
    · rw [Text.cutAt?_eq_none_iff.2 hplain, rendered_plain hplain]
      rfl
    · rw [cut_open_iff.2 ⟨rfl, hlead⟩, rendered_unterminated hlead hclose]
      simp only [cutPlaceholder?_eq_none_iff.2 hclose]
      rfl
    · -- a placeholder takes at least the four characters of its marks
      have hshort : rest.length < 4 * n := by
        simp [openMark, closeMark] at h
        omega
      rw [cut_open_iff.2 ⟨rfl, hlead⟩, rendered_placeholder hlead hinner hrest]
      simp only [cutPlaceholder?_eq_some_iff.2 ⟨rfl, hinner, hrest⟩]
      cases placeholderKey inner >>= lookup m with
      | error e => rfl
      | ok value =>
        dsimp only
        rw [ih hshort]
        cases rendered template m rest with
        | error e => rfl
        | ok text => simp [Except.map]

/-- **Every template comes to an end**, within a round for each four of its characters and one
more. -/
theorem rounds_eq (template : String) (m : Material) {n : Nat}
    (h : template.toList.length < 4 * n) :
    rounds template m n [] template.toList = some (render template m) := by
  rw [rounds_eq_rendered template m h, render_eq]
  rfl

/-- **Rendering puts values in the place of references, once, and the leftmost broken placeholder
decides the error.** A layout whose values are there is rendered to them. Where a broken placeholder
follows it, that is the error. Every template is of one of these two forms, and comes to an end. -/
theorem render_follows_layout (m : Material) (template : String) :
    (∀ (l : Layout) value, template.toList = l.text → l.Stored m value →
      render template m = .ok (String.ofList (l.filled value))) ∧
    (∀ (l : Layout) value after e, template.toList = l.text ++ (openMark ++ after) →
      l.Stored m value → Leads l.last → Broken template m after e → render template m = .error e) ∧
    (∃ (l : Layout) (value : String → String), l.Stored m value ∧ (template.toList = l.text ∨
      Leads l.last ∧ ∃ after e, Broken template m after e ∧
      template.toList = l.text ++ (openMark ++ after))) ∧
    ∀ n, template.toList.length < 4 * n →
      rounds template m n [] template.toList = some (render template m) := by
  refine ⟨fun l value h hstored => l.render_text h hstored,
    fun l value after e h hstored hlast hbroken => hbroken.render_eq h hstored hlast, ?_,
    fun n h => rounds_eq template m h⟩
  obtain ⟨l, value, more, hstored, htext, rfl | ⟨hlast, after, e, hbroken, rfl⟩⟩ :=
    exists_layout template m template.toList
  · exact ⟨l, value, hstored, .inl (by rw [htext, List.append_nil])⟩
  · exact ⟨l, value, hstored, .inr ⟨hlast, after, e, hbroken, htext⟩⟩

/-- The key of a group's value ends in a brace, and has a value that looks like a reference to the
key `k`. -/
def bracesMaterial : Material :=
  (Material.empty.insert "cpu.\x7bpod\x7d" "\x7b\x7b.k\x7d\x7d").insert "k" "3"

/-- Three closing braces end the reference to the one key; blanks stand around the other. -/
def bracesLayout : Layout where
  parts :=
    [([], .spaced [] "cpu.\x7bpod\x7d" Reference.blank_of_mem_nil
        ⟨"cpu.\x7bpod".toList, '\x7d', by decide, by decide⟩ (by decide +kernel) fun _ => rfl),
      ([' ', '>'], .spaced [' '] "k" (List.forall_mem_singleton.2 (by decide))
        ⟨[], 'k', by decide, by decide⟩ (by decide) fun h => absurd h (by decide))]
  last := []
  wellLaid := ⟨by decide, by decide, by decide⟩

/-- The value is put in with its braces, and not read again. -/
theorem render_follows_layout_braces :
    let template := "\x7b\x7b.cpu.\x7bpod\x7d\x7d\x7d >\x7b\x7b .k \x7d\x7d"
    let value (key : String) : String := if key = "k" then "3" else "\x7b\x7b.k\x7d\x7d"
    template.toList = bracesLayout.text ∧ bracesLayout.Stored bracesMaterial value ∧
      render template bracesMaterial = .ok "\x7b\x7b.k\x7d\x7d >3" := by
  intro template value
  have htext : template.toList = bracesLayout.text := by decide
  have hstored : bracesLayout.Stored bracesMaterial value := by
    unfold Layout.Stored
    decide
  have hfilled : String.ofList (bracesLayout.filled value) = "\x7b\x7b.k\x7d\x7d >3" := by decide
  refine ⟨htext, hstored, ?_⟩
  rw [(render_follows_layout bracesMaterial template).1 bracesLayout value htext hstored, hfilled]

end Template

end MeshLimiter
