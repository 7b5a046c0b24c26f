import Mathlib.Data.List.Nodup
import MeshLimiter.Proofs.Json.Reading
import MeshLimiter.Proofs.Json.Writer
/-!
# Objects of texts

The text of a group is an object whose members are texts. It is read back as it was written,
whatever quotes, backslashes, commas and braces the names and the texts have in them.

* **`Json.readMembers_memberChars`**: the members are read back up to the closing brace;
* **`Json.parse?_ofTexts`**: the object is read back;
* **`Json.perm_toList_foldl_insert`**: pairs with names of their own are the entries of the map made
  of them.
-/

namespace MeshLimiter.Json

/-- A member whose value is a text. -/
def textMember (p : String × String) : String × Json :=
  (p.1, .str p.2)

/-- An object whose members are texts. -/
def ofTexts (texts : List (String × String)) : Json :=
  .obj (texts.map textMember)

theorem dropWhile_isSpace_cons {c : Char} (h : isSpace c = false) (cs : List Char) :
    (c :: cs).dropWhile isSpace = c :: cs :=
  List.dropWhile_cons_of_neg (by rw [h]; exact Bool.false_ne_true)

/-- A text is written between quotes. -/
theorem textChars_append (s : String) (rest : List Char) :
    textChars s ++ rest = '"' :: (s.toList.flatMap escapedChar ++ '"' :: rest) := by
  simp [textChars]

theorem readValue_str (fuel depth : Nat) (v : String) (rest : List Char) :
    readValue (fuel + 1) depth (chars (.str v) ++ rest) = some (.str v, rest) := by
  rw [chars, textChars_append, readValue, dropWhile_isSpace_cons (by decide)]
  simp only [readText_flatMap, Option.map_some, String.ofList_toList]

/-- The last member is read, with the brace behind it. -/
theorem readMembers_last (fuel depth : Nat) (p : String × String) (rest : List Char) :
    readMembers (fuel + 2) depth (oneMemberChars (textMember p) ++ '\x7d' :: rest)
      = some ([textMember p], rest) := by
  rw [oneMemberChars, List.append_assoc, textChars_append, readMembers,
    dropWhile_isSpace_cons (by decide)]
  simp only [readText_flatMap, List.cons_append,
    dropWhile_isSpace_cons (show isSpace ':' = false by decide),
    dropWhile_isSpace_cons (show isSpace '\x7d' = false by decide), textMember, readValue_str,
    String.ofList_toList]

/-- A member before others is read, if they are. -/
theorem readMembers_cons {fuel depth : Nat} {cs rest : List Char} {members : List (String × Json)}
    (p : String × String) (h : readMembers (fuel + 1) depth cs = some (members, rest)) :
    readMembers (fuel + 2) depth (oneMemberChars (textMember p) ++ ',' :: cs)
      = some (textMember p :: members, rest) := by
  rw [oneMemberChars, List.append_assoc, textChars_append, readMembers,
    dropWhile_isSpace_cons (by decide)]
  simp only [readText_flatMap, List.cons_append,
    dropWhile_isSpace_cons (show isSpace ':' = false by decide),
    dropWhile_isSpace_cons (show isSpace ',' = false by decide), textMember, readValue_str,
    String.ofList_toList, h, Option.map_some]

/-- **The members are read back** up to the brace that closes them. -/
theorem readMembers_memberChars (p : String × String) {texts : List (String × String)} {fuel : Nat}
    (depth : Nat) (rest : List Char) (hfuel : texts.length + 1 < fuel) :
    readMembers fuel depth (memberChars ((p :: texts).map textMember) ++ '\x7d' :: rest)
      = some ((p :: texts).map textMember, rest) := by
  induction texts generalizing p fuel with
  | nil =>
    obtain ⟨fuel, rfl⟩ : ∃ n, fuel = n + 2 := Nat.exists_eq_add_of_le' hfuel
    exact readMembers_last fuel depth p rest
  | cons next texts ih =>
    rw [List.length_cons] at hfuel
    obtain ⟨fuel, rfl⟩ : ∃ n, fuel = n + 2 := Nat.exists_eq_add_of_le' (by omega)
    have hchars : memberChars ((p :: next :: texts).map textMember) ++ '\x7d' :: rest
        = oneMemberChars (textMember p) ++
          ',' :: (memberChars ((next :: texts).map textMember) ++ '\x7d' :: rest) := by
      simp [memberChars, oneMemberChars, textMember]
    rw [hchars]
    exact readMembers_cons p (ih next (show texts.length + 1 < fuel + 1 by omega))

/-- There are no more members than characters. -/
theorem length_le_memberChars (members : List (String × Json)) :
    members.length ≤ (memberChars members).length := by
  cases members with
  | nil => exact Nat.zero_le _
  | cons first members =>
    induction members generalizing first with
    | nil =>
      rw [memberChars, List.length_append, List.length_cons]
      exact Nat.le_add_left_of_le (Nat.le_add_left ..)
    | cons next members ih =>
      have hlater := ih next
      rw [memberChars]
      simp only [List.length_append, List.length_cons] at hlater ⊢
      omega

/-- Members begin with the quote of a name. -/
theorem exists_memberChars_cons (p : String × String) (texts : List (String × String)) :
    ∃ cs, memberChars ((p :: texts).map textMember) = '"' :: cs := by
  rw [memberChars_eq_listed]
  exact ⟨_, rfl⟩

theorem readValue_ofTexts {texts : List (String × String)} {fuel depth : Nat}
    (hfuel : texts.length < fuel) (hdepth : 1 < depth) (rest : List Char) :
    readValue (fuel + 1) depth (chars (ofTexts texts) ++ rest) = some (ofTexts texts, rest) := by
  rw [ofTexts, chars, List.cons_append, List.cons_append, readValue,
    dropWhile_isSpace_cons (by decide)]
  simp only [if_neg (Nat.not_le.2 hdepth), List.append_assoc, List.cons_append, List.nil_append]
  cases texts with
  | nil => rfl
  | cons p texts =>
    obtain ⟨cs, hcs⟩ := exists_memberChars_cons p texts
    have hmembers := readMembers_memberChars p (depth - 1) rest hfuel
    rw [hcs] at hmembers ⊢
    rw [List.cons_append] at hmembers ⊢
    rw [dropWhile_isSpace_cons (by decide)]
    show Option.map _ (readMembers fuel (depth - 1) _) = _
    rw [hmembers]
    rfl

/-- **An object of texts is read back.** -/
theorem parse?_ofTexts (texts : List (String × String)) :
    parse? (ofTexts texts).compact = some (ofTexts texts) := by
  have hlength := length_le_memberChars (texts.map textMember)
  have hfuel : texts.length < 2 * (chars (ofTexts texts)).length + 1 := by
    rw [ofTexts, chars]
    simp only [List.length_append, List.length_cons, List.length_map] at hlength ⊢
    omega
  have hread := readValue_ofTexts hfuel (show 1 < 128 by decide) []
  rw [List.append_nil] at hread
  rw [parse?, toList_compact, hread]
  rfl

/-! ## Pairs with names of their own

Where names differ, a member is found whatever the order of the members is. -/

section Pairs

variable {α : Type} {pairs : List (String × α)}

/-- **The entries of the map are the pairs** it was made of. -/
theorem perm_toList_foldl_insert (h : (pairs.map Prod.fst).Nodup) :
    (pairs.foldl (fun m p => m.insert p.1 p.2) (∅ : Std.ExtTreeMap String α)).toList.Perm
      pairs := by
  rw [foldl_insert_eq_ofList]
  have hdistinct : pairs.Pairwise fun p p' => ¬ compare p.1 p'.1 = .eq :=
    (List.pairwise_map.1 h).imp fun hne heq => hne (Std.LawfulEqCmp.eq_of_compare heq)
  have hentries : (Std.ExtTreeMap.ofList pairs).toList.Nodup :=
    Std.ExtTreeMap.distinct_keys_toList.imp fun {p p'} hne (heq : p = p') =>
      hne (Std.compare_eq_iff_eq.2 (congrArg Prod.fst heq))
  refine (List.perm_ext_iff_of_nodup hentries h.of_map).2 fun p => ?_
  rw [Std.ExtTreeMap.mem_toList_iff_getElem?_eq_some]
  constructor
  · intro hp
    -- whatever stands under the name is one of the pairs, and only one of them has the name
    have hname : (pairs.map Prod.fst).contains p.1 = true := by
      by_contra hnot
      rw [Std.ExtTreeMap.getElem?_ofList_of_contains_eq_false (Bool.not_eq_true _ ▸ hnot)] at hp
      cases hp
    obtain ⟨p', hp', hsame⟩ := List.mem_map.1 (List.contains_iff_mem.1 hname)
    have hvalue := Std.ExtTreeMap.getElem?_ofList_of_mem
      (Std.compare_eq_iff_eq.2 hsame) hdistinct hp'
    rw [hp] at hvalue
    rw [Prod.ext hsame.symm (Option.some.inj hvalue)]
    exact hp'
  · exact Std.ExtTreeMap.getElem?_ofList_of_mem Std.ReflCmp.compare_self hdistinct

/-- What an object has under a name, where each name stands once. -/
theorem field?_obj_eq_some_iff {members : List (String × Json)} (h : (members.map Prod.fst).Nodup)
    {name : String} {v : Json} : (obj members).field? name = some v ↔ (name, v) ∈ members := by
  show (members.foldl (fun m p => m.insert p.1 p.2) (∅ : Std.ExtTreeMap String Json))[name]?
      = some v ↔ _
  rw [← Std.ExtTreeMap.mem_toList_iff_getElem?_eq_some]
  exact (perm_toList_foldl_insert h).mem_iff

end Pairs

end MeshLimiter.Json
