import MeshLimiter.Proofs.Json.Writer
import MeshLimiter.Proofs.Query.Gather
import MeshLimiter.Proofs.Template.Layout
import MeshLimiter.Proofs.Text.Quoted
/-!
# References to the values of a group

A group keeps each of its values under its name and the signature of the labels. A template that
names this key is meant to be rendered to the value. The signature ends with a brace, which
rendering expects; but the quotes in it mean nothing to rendering, so closing braces that stand side
by side in the value of a label end the reference early.

* **`Sample.signature_inj`**: two sets of labels with the names that labels have do not share a
  signature;
* **`Sample.slot_members`**: what is stored under a signature;
* **`Sample.closesLate_memberKey_iff`**: when the key of a value can be named in a template;
* **`Sample.member_rendered_iff`**: the value of a group is rendered exactly where no two braces end
  it early.
-/

namespace MeshLimiter

/-! ## Signatures

A signature lists names and values one after another between braces. No name has a character that is
used between them, and values are quoted, so it can be taken apart again. -/

/-- A name that a label may have: letters, digits and underscores, of which the first is no
digit. -/
def isLabelName (name : String) : Bool :=
  match name.toList with
  | [] => false
  | c :: cs => (c.isAlpha || c = '_') && cs.all fun d => d.isAlphanum || d = '_'

/-- A name is not empty. -/
theorem ne_nil_of_isLabelName {name : String} (h : isLabelName name = true) : name.toList ≠ [] := by
  intro hnil
  rw [isLabelName, hnil] at h
  cases h

/-- It has letters, digits and underscores only. -/
theorem not_mem_of_isLabelName {name : String} (h : isLabelName name = true) {c : Char}
    (hc : (c.isAlphanum || c = '_') = false) : c ∉ name.toList := by
  unfold isLabelName at h
  cases hname : name.toList with
  | nil => exact List.not_mem_nil
  | cons d ds =>
    rw [hname] at h
    obtain ⟨hd, hds⟩ := Bool.and_eq_true_iff.1 h
    intro hmem
    rcases List.mem_cons.1 hmem with rfl | hmem
    · simp [Char.isAlphanum] at hc hd
      simp [hc] at hd
    · rw [List.all_eq_true.1 hds c hmem] at hc
      cases hc

namespace Labels

/-- The names are names that labels may have. -/
def Named (labels : Labels) : Prop :=
  ∀ name value, labels[name]? = some value → isLabelName name = true

/-- In the value of a label, a closing brace comes next to one, be it in the value or behind the
number that a character is shown by. -/
def Breaks (labels : Labels) : Prop :=
  ∃ (name value : String) (c : Char), labels[name]? = some value ∧ Text.ShownClosed c ∧
    [c, '\x7d'] <:+: value.toList

/-- Each of the names is one. -/
theorem Named.of_mem {labels : Labels} (h : labels.Named) {label : String × String}
    (hmem : label ∈ labels.toList) : isLabelName label.1 = true :=
  h _ _ (Std.ExtTreeMap.mem_toList_iff_getElem?_eq_some.1 hmem)

end Labels

namespace Sample

open Json (listed WrittenApart)

/-- A label as it is shown. -/
def labelChars (label : String × String) : List Char :=
  label.1.toList ++ '=' :: Text.quotedChars label.2

theorem listed_cons_cons {α : Type} {f : α → List Char} (x y : α) (xs : List α) :
    listed f (x :: y :: xs) = f x ++ ',' :: listed f (y :: xs) := by
  simp [listed]

theorem intercalate_labelChars (pairs : List (String × String)) :
    [','].intercalate (pairs.map labelChars) = listed labelChars pairs := by
  cases pairs with
  | nil => rfl
  | cons pair pairs =>
    induction pairs generalizing pair with
    | nil => simp [listed]
    | cons next pairs ih =>
      rw [List.map_cons, List.map_cons, List.intercalate_cons_cons, ← List.map_cons, ih,
        listed_cons_cons]
      simp

/-- A signature is the list of labels between braces. -/
theorem toList_signature (labels : Labels) :
    (signature labels).toList = '\x7b' :: (listed labelChars labels.toList ++ ['\x7d']) := by
  have hlabel : (fun label : String × String => (label.1 ++ "=" ++ Text.quoted label.2).toList)
      = labelChars := by
    funext label
    simp [labelChars, Text.toList_quoted]
  rw [← intercalate_labelChars, ← hlabel]
  simp [signature, Function.comp_def]

variable {labels labels' : Labels}

/-- A label ends where its value does, so two of them can be told apart. -/
theorem writtenApart_labelChars {label : String × String} (h : isLabelName label.1 = true) :
    WrittenApart (fun label => isLabelName label.1 = true) labelChars label := by
  intro label' s t h' _ _ heq
  -- no label name has an equals sign, so cutting at the first one returns the name
  have hcut : ∀ {name : String}, isLabelName name = true → ∀ cs,
      Text.cutAt? ['='] (name.toList ++ '=' :: cs) = some (name.toList, cs) := by
    intro name hname cs
    refine Text.cutAt?_append (fun hstands => ?_) (List.cons_ne_nil '=' [])
    rw [List.dropLast_singleton, List.append_nil] at hstands
    exact not_mem_of_isLabelName hname (by decide) (hstands.subset List.mem_cons_self)
  rw [labelChars, labelChars, List.append_assoc, List.append_assoc, List.cons_append,
    List.cons_append] at heq
  have hsame := hcut h (Text.quotedChars label.2 ++ s)
  rw [heq, hcut h'] at hsame
  obtain ⟨hname, hvalue⟩ := Prod.mk.inj (Option.some.inj hsame)
  obtain ⟨hvalue, hst⟩ := Text.quotedChars_append_inj hvalue
  exact ⟨Prod.ext (String.toList_inj.1 hname).symm hvalue.symm, hst.symm⟩

/-- **Labels that are named as labels are do not share a signature.** -/
theorem signature_inj (hlabels : labels.Named) (hlabels' : labels'.Named)
    (h : signature labels = signature labels') : labels = labels' := by
  have hchars := congrArg String.toList h
  rw [toList_signature, toList_signature] at hchars
  -- a label begins with its name, and no name begins with a brace
  have hopen : ∀ label : String × String, isLabelName label.1 = true →
      ∀ u v, labelChars label ++ u ≠ '\x7d' :: v := by
    intro label hlabel u v heq
    obtain ⟨c, cs, hname⟩ := List.exists_cons_of_ne_nil (ne_nil_of_isLabelName hlabel)
    rw [labelChars, hname] at heq
    have hbrace : '\x7d' ∈ label.1.toList := by
      rw [hname, ← (List.cons.inj heq).1]
      exact List.mem_cons_self
    exact not_mem_of_isLabelName hlabel (by decide) hbrace
  have hlists := Json.listed_append_inj (by decide) (by decide) hopen
    (fun label hmem => writtenApart_labelChars (hlabels.of_mem hmem)) (fun _ => hlabels.of_mem)
    (fun _ => hlabels'.of_mem) (List.cons.inj hchars).2
  exact Std.ExtTreeMap.toList_inj.1 hlists.1

/-! ## What is stored under a signature

Values with one signature overwrite one another, and the last is left. -/

variable {metric : String}

/-- Keys of one group differ by the signature. -/
theorem memberKey_inj :
    memberKey metric labels = memberKey metric labels' ↔ signature labels = signature labels' := by
  simp [memberKey, ← String.toList_inj]

/-- A key below a name is not the name. -/
theorem below_ne (metric rest : String) : metric ++ "." ++ rest ≠ metric := by
  intro h
  have hlength := congrArg (fun key => key.toList.length) h
  simp at hlength

/-- No key of a value is the key of the group. -/
theorem memberKey_ne (metric : String) (labels : Labels) : memberKey metric labels ≠ metric :=
  below_ne metric (signature labels)

/-- The last of the values whose labels have the signature of the given ones. -/
def lastValue? (points : List (Labels × Float)) (labels : Labels) : Option Float :=
  ((points.filter fun p => signature p.1 = signature labels).getLast?).map Prod.snd

theorem slot_members (points : List (Labels × Float)) (m : Material) :
    (points.foldl (fun (m : Material) (l, x) => m.insert (memberKey metric l) (Decimal.floatText x))
        m).slot (memberKey metric labels) =
      match lastValue? points labels with
      | some x => (some (Decimal.floatText x), false)
      | none => m.slot (memberKey metric labels) := by
  induction points using List.reverseRecOn with
  | nil => rfl
  | append_singleton points p ih =>
    obtain ⟨l, x⟩ := p
    rw [List.foldl_concat, Material.slot_insert, ih]
    unfold lastValue?
    rw [List.filter_append]
    -- the last point with the signature decides: either it is this one or it comes before
    by_cases h : signature l = signature labels
    · rw [if_pos (memberKey_inj.2 h)]
      simp [h]
    · rw [if_neg fun hkey => h (memberKey_inj.1 hkey)]
      simp [h]

variable {q : Query} {m m' : Material} {points : List (Labels × Float)} {x : Float}

/-- **A sample that is stored for a group has each of its values under the signature**, the last one
where several share it. -/
theorem slot_of_store? (hgroup : q.kind = .group) (h : store? m q (.vector points) = some m')
    (hx : lastValue? points labels = some x) :
    m'.slot (memberKey q.name labels) = (some (Decimal.floatText x), false) := by
  unfold store? at h
  rw [hgroup] at h
  dsimp only at h
  split at h
  · cases h
  · obtain rfl := Option.some.inj h
    rw [Material.slot_insertGroup, if_neg (memberKey_ne _ _).symm]
    exact (slot_members points m).trans (by rw [hx])

/-! ## Closing braces in a key

A name has none, so two of them stand side by side only in a value, or where a value ends. -/

open Template (closeMark openMark ClosesLate Leads)

/-- Two braces do not stand across a comma. -/
theorem close_infix_listed_iff {f : String × String → List Char} (pairs : List (String × String)) :
    closeMark <:+: listed f pairs ↔ ∃ pair ∈ pairs, closeMark <:+: f pair := by
  cases pairs with
  | nil => simp [listed, closeMark]
  | cons pair pairs =>
    induction pairs generalizing pair with
    | nil => simp [listed]
    | cons next pairs ih =>
      rw [listed_cons_cons, List.exists_mem_cons_iff, ← ih]
      exact Text.pair_infix_append_cons (by decide)

/-- They do not stand in a name. -/
theorem close_infix_labelChars_iff {label : String × String} (h : isLabelName label.1 = true) :
    closeMark <:+: labelChars label ↔
      ∃ c, Text.ShownClosed c ∧ [c, '\x7d'] <:+: label.2.toList := by
  have hname : ¬ closeMark <:+: label.1.toList :=
    Text.not_pair_infix_of_not_mem (not_mem_of_isLabelName h (by decide))
  rw [← Text.pair_infix_quotedChars_iff]
  refine (Text.pair_infix_append_cons (by decide)).trans ?_
  exact or_iff_right hname

/-- Closing braces stand side by side in a signature if they do in a value, as it is shown. -/
theorem close_infix_listed_labels_iff (hlabels : labels.Named) :
    closeMark <:+: listed labelChars labels.toList ↔ labels.Breaks := by
  rw [close_infix_listed_iff]
  constructor
  · rintro ⟨⟨name, value⟩, hmem, hstands⟩
    obtain ⟨c, hc, hstands⟩ := (close_infix_labelChars_iff (hlabels.of_mem hmem)).1 hstands
    exact ⟨name, value, c, Std.ExtTreeMap.mem_toList_iff_getElem?_eq_some.1 hmem, hc, hstands⟩
  · rintro ⟨name, value, c, hvalue, hc, hstands⟩
    have hmem : (name, value) ∈ labels.toList :=
      Std.ExtTreeMap.mem_toList_iff_getElem?_eq_some.2 hvalue
    exact ⟨_, hmem, (close_infix_labelChars_iff (hlabels.of_mem hmem)).2 ⟨c, hc, hstands⟩⟩

/-- A name is written with a dot and the opening brace of a signature behind it. -/
def memberLead (metric : String) : List Char :=
  metric.toList ++ ['.', '\x7b']

theorem toList_memberKey (metric : String) (labels : Labels) :
    (memberKey metric labels).toList = memberLead metric
      ++ (listed labelChars labels.toList ++ ['\x7d']) := by
  simp [memberKey, memberLead, toList_signature]

/-- Labels end with the quote of the last value. -/
theorem exists_listed_eq (label : String × String) (labels : List (String × String)) :
    ∃ lead, listed labelChars (label :: labels) = lead ++ ['"'] := by
  induction labels generalizing label with
  | nil => exact ⟨label.1.toList ++ '=' :: '"' :: label.2.toList.flatMap (Text.escaped '"'), by
      simp [listed, labelChars, Text.quotedChars]⟩
  | cons next labels ih =>
    obtain ⟨lead, hlead⟩ := ih next
    rw [listed_cons_cons, hlead]
    exact ⟨labelChars label ++ ',' :: lead, by simp⟩

/-- **The key of a value can be named in a template** unless two closing braces stand side by side
in it. -/
theorem closesLate_memberKey_iff (hmetric : '\x7d' ∉ metric.toList) (hlabels : labels.Named) :
    ClosesLate (memberKey metric labels).toList ↔ ¬ labels.Breaks := by
  have hlead : '\x7d' ∉ memberLead metric := by simpa [memberLead] using hmetric
  -- the brace that closes the signature is the only one at the end
  have hopen : ∀ c ∈ (memberLead metric ++ listed labelChars labels.toList).getLast?,
      decide (c = '\x7d') = false := by
    intro c hc
    cases hlist : labels.toList with
    | nil =>
      rw [hlist, listed, List.append_nil, memberLead] at hc
      simp at hc
      exact decide_eq_false (by rw [← hc]; decide)
    | cons label rest =>
      obtain ⟨lead, hlast⟩ := exists_listed_eq label rest
      rw [hlist, hlast, ← List.append_assoc, List.getLast?_concat] at hc
      exact decide_eq_false (by rw [← Option.some.inj hc]; decide)
  rw [ClosesLate, toList_memberKey, ← List.append_assoc,
    List.rdropWhile_concat_pos _ _ _ (by decide),
    Text.rdropWhile_eq_self hopen, ← close_infix_listed_labels_iff hlabels]
  exact not_congr (Text.pair_infix_append_left hlead)

/-! ## References to it

The template is read like any other. It ends where rendering says so, and what was read is looked
up. -/

/-- The template that names the key of a value. -/
def reference (metric : String) (labels : Labels) : String :=
  "\x7b\x7b." ++ memberKey metric labels ++ "\x7d\x7d"

theorem toList_reference (metric : String) (labels : Labels) :
    (reference metric labels).toList = openMark
      ++ ('.' :: (memberKey metric labels).toList ++ closeMark) := by
  simp [reference, openMark, closeMark]

/-- Where no braces are in its way, it is a reference of templates. -/
theorem exists_reference (hmetric : '\x7d' ∉ metric.toList) (hlabels : labels.Named)
    (h : ¬ labels.Breaks) :
    ∃ r : Template.Reference, r.key = memberKey metric labels ∧
      (reference metric labels).toList = r.text := by
  have hkey : (memberKey metric labels).toList
      = memberLead metric ++ listed labelChars labels.toList ++ ['\x7d'] := by
    rw [toList_memberKey, ← List.append_assoc]
  refine ⟨.spaced [] (memberKey metric labels) (List.forall_mem_nil _) ⟨_, _, hkey, by decide⟩
    ((closesLate_memberKey_iff hmetric hlabels).2 h) fun _ => rfl, rfl, ?_⟩
  rw [toList_reference]
  simp [Template.Reference.text, Template.Reference.inside, Template.Reference.spaced]

/-- A value that is stored is looked up. -/
theorem lookup_of_slot {key v : String} (h : m.slot key = (some v, false)) :
    Template.lookup m key = .ok v :=
  Template.lookup_eq_ok_iff.2 ⟨congrArg Prod.snd h, congrArg Prod.fst h⟩

/-- A value that can be named is rendered. -/
theorem render_reference {v : String} (hmetric : '\x7d' ∉ metric.toList) (hlabels : labels.Named)
    (h : ¬ labels.Breaks) (hv : m.slot (memberKey metric labels) = (some v, false)) :
    Template.render (reference metric labels) m = .ok v := by
  obtain ⟨r, hkey, htext⟩ := exists_reference hmetric hlabels h
  have hlead : Leads [] := by decide
  have hlookup : Template.lookup m r.key = .ok v := by
    rw [hkey]
    exact lookup_of_slot hv
  have hparts : (reference metric labels).toList = [] ++ (r.text ++ []) := by
    rw [htext, List.nil_append, List.append_nil]
  rw [Template.render_eq, hparts, r.rendered_eq hlead (by simp) hlookup,
    Template.rendered_plain (by decide)]
  show Except.ok (String.ofList ([] ++ (v.toList ++ []))) = _
  rw [List.nil_append, List.append_nil, String.ofList_toList]

/-- What is read of a key where braces end it early: the name, and the signature up to a place
inside. -/
theorem exists_inner (hmetric : '\x7d' ∉ metric.toList) (hlabels : labels.Named)
    (h : labels.Breaks) : ∃ read rest, '.' :: (memberKey metric labels).toList ++ closeMark
        = '.' :: (memberLead metric ++ read) ++ (closeMark ++ rest) ∧
      ClosesLate ('.' :: (memberLead metric ++ read)) ∧ rest.head? ≠ some '\x7d' ∧
      memberLead metric ++ read <+: (memberKey metric labels).toList ∧
      memberLead metric ++ read ≠ (memberKey metric labels).toList := by
  have hlead : '\x7d' ∉ '.' :: memberLead metric := by simpa [memberLead] using hmetric
  rw [toList_memberKey]
  generalize hshown : listed labelChars labels.toList ++ ['\x7d'] = shown
  have hmark : closeMark <:+: '.' :: memberLead metric ++ (shown ++ closeMark) :=
    ((List.suffix_append shown closeMark).trans (List.suffix_append _ _)).isInfix
  cases hcut : Template.cutPlaceholder? ('.' :: memberLead metric ++ (shown ++ closeMark)) with
  | none => exact absurd hmark (Template.cutPlaceholder?_eq_none_iff.1 hcut)
  | some parts =>
    obtain ⟨inner, rest⟩ := parts
    obtain ⟨hsplit, hinner, hrest⟩ := Template.cutPlaceholder?_eq_some_iff.1 hcut
    -- there is no closing brace in the name, so more than that is read
    obtain ⟨read, rfl, hread⟩ : ∃ read, inner = '.' :: memberLead metric ++ read ∧
        shown ++ closeMark = read ++ (closeMark ++ rest) := by
      rcases List.append_eq_append_iff.1 hsplit with ⟨read, hread⟩ | ⟨back, hback, hmeet⟩
      · exact ⟨read, hread⟩
      · cases back with
        | nil => exact ⟨[], by rw [hback, List.append_nil, List.append_nil], hmeet.symm⟩
        | cons c back =>
          obtain rfl : '\x7d' = c := (List.cons.inj hmeet).1
          exact absurd (by rw [hback]; exact List.mem_append_right _ List.mem_cons_self) hlead
    have hprefix : read <+: shown := by
      have hlength := congrArg List.length hread
      have hread' : read <+: shown ++ closeMark := by
        rw [hread]
        exact List.prefix_append _ _
      refine List.prefix_of_prefix_length_le hread' (List.prefix_append _ _) ?_
      simp at hlength
      omega
    refine ⟨read, rest, by simpa using hsplit, hinner, hrest,
      (List.prefix_append_right_inj _).2 hprefix,
      fun heq => ?_⟩
    have hkey : ClosesLate ([] ++ ('.' :: (memberKey metric labels).toList ++ [])) := by
      rw [toList_memberKey, hshown, ← heq, List.nil_append, List.append_nil]
      exact hinner
    have hlate :=
      (Template.closesLate_inside_iff (List.forall_mem_nil _) (List.forall_mem_nil _)).1 hkey
    exact (closesLate_memberKey_iff hmetric hlabels).1 hlate.1 h

/-- What rendering reads in its place where braces end it early: the name and part of the
signature. -/
theorem exists_cut (hmetric : '\x7d' ∉ metric.toList) (hlabels : labels.Named) (h : labels.Breaks) :
    ∃ cut : String, memberLead metric <+: cut.toList ∧
      cut.toList <+: (memberKey metric labels).toList ∧ cut ≠ memberKey metric labels ∧
      ∀ (m : Material) (e : Template.Error), Template.lookup m cut = .error e →
        Template.render (reference metric labels) m = .error e := by
  obtain ⟨read, rest, hsplit, hinner, hrest, hprefix, hne⟩ := exists_inner hmetric hlabels h
  -- blanks at its end are not part of a key
  obtain ⟨cut, hcut⟩ : ∃ cut : String, cut.toList = memberLead metric
    ++ read.rdropWhile Text.isBlank :=
    ⟨_, String.toList_ofList⟩
  have htrim : Text.trim ('.' :: (memberLead metric ++ read)) = '.' :: cut.toList := by
    have hlast : ∀ c ∈ ('.' :: memberLead metric).getLast?, Text.isBlank c = false := by
      have hend : '.' :: memberLead metric = '.' :: metric.toList ++ ['.'] ++ ['\x7b'] := by
        simp [memberLead]
      rw [hend, List.getLast?_concat]
      rintro c ⟨⟩
      decide
    show (Text.skipBlank ('.' :: (memberLead metric ++ read))).rdropWhile Text.isBlank = _
    rw [Text.skipBlank_cons_of_not_blank (by decide), ← List.cons_append,
      Text.rdropWhile_append_of_neg hlast, hcut]
    rfl
  have hkey : Template.placeholderKey ('.' :: (memberLead metric ++ read)) = .ok cut := by
    obtain ⟨c, cs, hcons⟩ : ∃ c cs, cut.toList = c :: cs :=
      List.exists_cons_of_ne_nil (by rw [hcut]; simp [memberLead])
    rw [Template.placeholderKey, htrim, hcons]
    show Except.ok (String.ofList (c :: cs)) = _
    rw [← hcons, String.ofList_toList]
  have hshort : cut.toList <+: memberLead metric ++ read := by
    rw [hcut]
    exact (List.prefix_append_right_inj _).2 (List.rdropWhile_prefix _ _)
  refine ⟨cut, ?_, hshort.trans hprefix, fun heq => hne ?_, fun m e he => ?_⟩
  · rw [hcut]
    exact List.prefix_append _ _
  · rw [heq] at hshort
    exact hprefix.eq_of_length_le hshort.length_le
  · have htext : (reference metric labels).toList =
        [] ++ (openMark ++ ('.' :: (memberLead metric ++ read) ++ (closeMark ++ rest))) := by
      rw [toList_reference, hsplit, List.nil_append]
    rw [Template.render_eq, htext, Template.rendered_named (by decide) hinner hrest hkey, he]
    rfl

/-- There is a last value. -/
theorem exists_lastValue? (h : labels ∈ points.map Prod.fst) :
    ∃ x, lastValue? points labels = some x := by
  obtain ⟨p, hp, rfl⟩ := List.mem_map.1 h
  have hmem : p ∈ points.filter fun p' => signature p'.1 = signature p.1 :=
    List.mem_filter.2 ⟨hp, decide_eq_true rfl⟩
  unfold lastValue?
  rw [List.getLast?_eq_some_getLast (List.ne_nil_of_mem hmem)]
  exact ⟨_, rfl⟩

/-- A sample of a single value, stored where nothing was. -/
def single (metric : String) (labels : Labels) (x : Float) : Material :=
  (({} : Material).insert (memberKey metric labels) (Decimal.floatText x)).insertGroup metric
    (groupText [(labels, x)])

theorem store?_single (hgroup : q.kind = .group) (labels : Labels) (x : Float) :
    store? {} q (.vector [(labels, x)]) = some (single q.name labels x) := by
  unfold store?
  rw [hgroup]
  rfl

/-- Nothing stands under other keys. -/
theorem lookup_single {key : String} (hname : key ≠ metric) (hkey : key ≠ memberKey metric labels) :
    Template.lookup (single metric labels x) key = .error (.unknownMetric key) := by
  have hslot : (single metric labels x).slot key = (none, false) := by
    rw [single, Material.slot_insertGroup, if_neg hname.symm, Material.slot_insert,
      if_neg hkey.symm]
    simp [Material.slot]
  have hgroup : (single metric labels x).isGroup key = false := congrArg Prod.snd hslot
  have hvalue : (single metric labels x).get? key = none := congrArg Prod.fst hslot
  rw [Template.lookup, hgroup, hvalue]
  rfl

/-- **The value of a group is rendered exactly where no two braces end it early.** A sample that is
stored for a group has a value under the signature of each of its sets of labels, and labels that
are named as labels are have a signature of their own. The reference to it is rendered to the value,
whatever was stored before, unless two closing braces stand side by side in the value of a label.
Then rendering reads a shorter key, which is an error unless something else happens to be stored
there. -/
theorem member_rendered_iff (hgroup : q.kind = .group) (hname : '\x7d' ∉ q.name.toList)
    (hlabels : labels.Named) :
    (∀ m points m', store? m q (.vector points) = some m' → labels ∈ points.map Prod.fst →
      ∃ x, lastValue? points labels = some x ∧
        m'.slot (memberKey q.name labels) = (some (Decimal.floatText x), false)) ∧
    (∀ labels' : Labels, labels'.Named → signature labels' = signature labels → labels' = labels) ∧
    ((∀ m points m' x, store? m q (.vector points) = some m' → lastValue? points labels = some x →
      Template.render (reference q.name labels) m' = .ok (Decimal.floatText x)) ↔ ¬ labels.Breaks) ∧
    (labels.Breaks → ∃ cut : String, cut.toList <+: (memberKey q.name labels).toList ∧
      cut ≠ memberKey q.name labels ∧ ∀ (m : Material) (e : Template.Error),
        Template.lookup m cut = .error e → Template.render (reference q.name labels) m
          = .error e) := by
  refine ⟨fun m points m' h hmem => ?_, fun labels' hlabels' h => signature_inj hlabels' hlabels h,
    ⟨fun hall hbreaks => ?_, fun hbreaks m points m' x h hx => ?_⟩, fun hbreaks => ?_⟩
  · obtain ⟨x, hx⟩ := exists_lastValue? hmem
    exact ⟨x, hx, slot_of_store? hgroup h hx⟩
  · -- where nothing else is stored, nothing stands under the shorter key
    obtain ⟨cut, hlead, -, hne, herror⟩ := exists_cut hname hlabels hbreaks
    have hshort : cut ≠ q.name := by
      rintro rfl
      have hlength := hlead.length_le
      rw [memberLead, List.length_append] at hlength
      exact absurd hlength (Nat.not_le.2 (Nat.lt_add_of_pos_right (by decide)))
    have hok := hall {} [(labels, 0)] _ 0 (store?_single hgroup labels 0) (by simp [lastValue?])
    rw [herror _ _ (lookup_single hshort hne)] at hok
    cases hok
  · exact render_reference hname hlabels hbreaks (slot_of_store? hgroup h hx)
  · obtain ⟨cut, -, hprefix, hne, herror⟩ := exists_cut hname hlabels hbreaks
    exact ⟨cut, hprefix, hne, herror⟩

/-- A group by the source of requests. -/
def bySource : Query :=
  { name := "by_source", query := "sum(rps) by (source)", kind := .group }

/-- Opening braces and a quote in the value of a label do no harm. -/
theorem member_rendered_iff_quote :
    let labels : Labels := {("source", "a\"\x7b\x7bb")}
    bySource.kind = .group ∧ '\x7d' ∉ bySource.name.toList ∧ labels.Named ∧
      reference bySource.name labels =
        "\x7b\x7b.by_source.\x7bsource=\"a\\\"\x7b\x7bb\"\x7d\x7d\x7d" ∧
      store? {} bySource (.vector [(labels, 1)]) = some (single bySource.name labels 1) ∧
      Template.render (reference bySource.name labels) (single bySource.name labels 1)
        = .ok (Decimal.floatText 1) := by
  intro labels
  have hlist : labels.toList = [("source", "a\"\x7b\x7bb")] := by decide
  have hone : ∀ name value, labels[name]? = some value →
      name = "source" ∧ value = "a\"\x7b\x7bb" := by
    intro name value h
    rw [← Std.ExtTreeMap.mem_toList_iff_getElem?_eq_some, hlist, List.mem_singleton] at h
    exact Prod.mk.inj h
  have hnamed : labels.Named := fun name value h => by
    rw [(hone name value h).1]
    decide
  -- the value has opening braces only
  have hbreaks : ¬ labels.Breaks := by
    rintro ⟨name, value, c, hvalue, -, hstands⟩
    rw [(hone name value hvalue).2] at hstands
    have hbrace : '\x7d' ∈ "a\"\x7b\x7bb".toList := hstands.subset (by simp)
    exact absurd hbrace (by decide)
  have hstore := store?_single (q := bySource) rfl labels 1
  refine ⟨rfl, by decide, hnamed, by decide +kernel, hstore, ?_⟩
  obtain ⟨-, -, hiff, -⟩ := member_rendered_iff (q := bySource) rfl (by decide) hnamed
  exact hiff.2 hbreaks {} _ _ 1 hstore (by simp [lastValue?])

/-- Two closing braces in the value of a label: the value is stored, and the reference ends before
them. -/
theorem exists_member_cut :
    let labels : Labels := {("source", "a\x7d\x7db")}
    labels.Named ∧
      reference bySource.name labels = "\x7b\x7b.by_source.\x7bsource=\"a\x7d\x7db\"\x7d\x7d\x7d" ∧
      store? {} bySource (.vector [(labels, 1)]) = some (single bySource.name labels 1) ∧
      (single bySource.name labels 1).slot (memberKey bySource.name labels)
        = (some (Decimal.floatText 1), false) ∧
      Template.render (reference bySource.name labels) (single bySource.name labels 1)
        = .error (.unknownMetric "by_source.\x7bsource=\"a") := by
  intro labels
  have hlist : labels.toList = [("source", "a\x7d\x7db")] := by decide
  have hnamed : labels.Named := by
    intro name value h
    rw [← Std.ExtTreeMap.mem_toList_iff_getElem?_eq_some, hlist, List.mem_singleton] at h
    rw [(Prod.mk.inj h).1]
    decide
  have hstore := store?_single (q := bySource) rfl labels 1
  refine ⟨hnamed, by decide +kernel, hstore, slot_of_store? rfl hstore (by simp [lastValue?]), ?_⟩
  -- the first two braces that close stand within the value
  have htext : (reference bySource.name labels).toList = [] ++ (openMark ++
      (".by_source.\x7bsource=\"a".toList
        ++ (closeMark ++ "b\"\x7d\x7d\x7d".toList))) := by decide +kernel
  have hkey : Template.placeholderKey ".by_source.\x7bsource=\"a".toList
      = .ok "by_source.\x7bsource=\"a" := by
    decide
  have hlookup : Template.lookup (single bySource.name labels 1) "by_source.\x7bsource=\"a"
      = .error (.unknownMetric "by_source.\x7bsource=\"a") :=
      lookup_single (by decide) (by decide +kernel)
  rw [Template.render_eq, htext,
    Template.rendered_named (by decide) (by decide +kernel) (by decide) hkey, hlookup]
  rfl

end Sample

end MeshLimiter
