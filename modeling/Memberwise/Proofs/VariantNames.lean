import Memberwise.Proofs.CaseMapping
import Memberwise.Proofs.Pieces
import Memberwise.Proofs.Variants

/-!
# Memberwise.Proofs.VariantNames — which variants are identifiers

A variant is a member's name without underscores and with capital letters after them, led by
`Member` in some cases and with a number at its end in others. For a member whose name is a word,
all characters of the variant continue identifiers, and it is no reserved word: all of these but
`Self` start with an underscore or a small letter, and a capital form does not.

What is left is the first character. It is the capital form of the first one that is shown, and
starts an identifier if that one does (`head?_upperChar`). What only continues identifiers, such as
a mark or a digit of another script, comes to the front when the underscores before it go. `Member`
is put before ASCII digits, and not before the others.
-/

namespace Memberwise

open Naming Text
open Token (IsWord)

/-! ## First letters -/

theorem upperChar_ne_nil (c : Char) : upperChar c ≠ [] := by
  have hexpansions : ∀ e ∈ upperExpansions, e.2 ≠ [] := by decide
  rw [upperChar, mapCase]
  split
  · simp
  · split
    · next ns hlookup =>
      obtain ⟨before, after, heq, -⟩ := List.lookup_eq_some_iff.mp hlookup
      simpa using hexpansions (c.toNat, ns) (by simp [heq])
    · simp

/-- The capital form of a character that continues identifiers starts one if the character does, or
if it is the combining iota; it starts with a digit if the character is one. -/
theorem head?_upperChar {c : Char} (h : isIdentContinue c = true) :
    ∃ d, (upperChar c).head? = some d ∧
      (isIdentStart d = true ↔ isIdentStart c = true ∨ c = '\u0345') ∧ d.isDigit = c.isDigit := by
  by_cases hstart : isIdentStart c = true
  · obtain ⟨d, ds, heq, hd, -⟩ := isWord_upperChar hstart
    refine ⟨d, by rw [heq]; rfl, by simp [hd, hstart], ?_⟩
    rw [Token.isDigit_of_isIdentStart hd, Token.isDigit_of_isIdentStart hstart]
  · by_cases hiota : c = '\u0345'
    · subst hiota
      exact ⟨'Ι', by decide +kernel⟩
    · have hextra : identExtra.has c.toNat = true := by
        simp_all [isIdentStart, isIdentContinue]
      exact ⟨c, by rw [upperChar_of_extra hextra hiota]; rfl, by simp [hiota], rfl⟩

theorem toNat_ofNat_eq_or (n : Nat) : (Char.ofNat n).toNat = n ∨ (Char.ofNat n).toNat = 0 := by
  by_cases hvalid : n.isValidChar
  · left
    rw [Char.ofNat, dif_pos hvalid]
    rfl
  · right
    rw [Char.ofNat, dif_neg hvalid]
    rfl

theorem toNat_of_isLower {c : Char} (h : c.isLower = true) : 0x61 ≤ c.toNat ∧ c.toNat ≤ 0x7A := by
  obtain ⟨hlow, hhigh⟩ := Bool.and_eq_true_iff.mp h
  exact ⟨of_decide_eq_true hlow, of_decide_eq_true hhigh⟩

/-- A character that cannot start a reserved word, other than `Self`. -/
def StartsNoKeyword (c : Char) : Prop := c ≠ '_' ∧ c.isLower = false

instance : DecidablePred StartsNoKeyword := fun _ => inferInstanceAs (Decidable (_ ∧ _))

theorem startsNoKeyword_of_toNat {c : Char} (h : c.toNat < 0x5F ∨ 0x7A < c.toNat) :
    StartsNoKeyword c := by
  constructor
  · rintro rfl
    revert h
    decide
  · rw [Bool.eq_false_iff]
    intro hlower
    have hbounds := toNat_of_isLower hlower
    omega

theorem image?_of_isLower {c : Char} (h : c.isLower = true) :
    (upperMap.image? c.toNat).isSome = true := by
  obtain ⟨hlow, hhigh⟩ := toNat_of_isLower h
  rw [upperMap, CodeMap.image?, if_pos hhigh, if_pos ⟨hlow, Nat.mod_one _⟩]
  rfl

/-- Capital forms start no reserved words but `Self`, apart from that of the underscore. -/
theorem startsNoKeyword_upperChar {c d : Char} (hc : c ≠ '_') (h : (upperChar c).head? = some d) :
    StartsNoKeyword d := by
  have hranges : ∀ r ∈ upperMap, r.2.2.2 + (r.2.1 - r.1) < 0x5F ∨ 0x7A < r.2.2.2 := by
    decide +kernel
  have hexpansions : ∀ e ∈ upperExpansions, ∀ n ∈ e.2.head?, StartsNoKeyword (Char.ofNat n) := by
    decide +kernel
  rw [upperChar, mapCase] at h
  -- A capital comes from a range, from an expansion, or is the character itself.
  split at h
  · next n himage =>
    obtain rfl := Option.some.inj h
    obtain ⟨r, hr, -, hlast, -, rfl⟩ := CodeMap.exists_range_of_image? himage
    apply startsNoKeyword_of_toNat
    have hr := hranges r hr
    have hcode := toNat_ofNat_eq_or (r.2.2.2 + (c.toNat - r.1))
    omega
  · next himage =>
    split at h
    · next ns hlookup =>
      obtain ⟨before, after, heq, -⟩ := List.lookup_eq_some_iff.mp hlookup
      rw [List.head?_map, Option.map_eq_some_iff] at h
      obtain ⟨n, hn, rfl⟩ := h
      exact hexpansions (c.toNat, ns) (by simp [heq]) n hn
    · obtain rfl := Option.some.inj h
      -- A small ASCII letter has a capital in the table, so the character is none.
      refine ⟨hc, Bool.eq_false_iff.mpr fun hlower => ?_⟩
      have hsome := image?_of_isLower hlower
      rw [himage] at hsome
      cases hsome

/-! ## Capitalized words -/

section

variable {p : Char → Bool} {cs : List Char}

/-- Capitalized words start with the capital form of their first character. -/
theorem head?_capitalized :
    ((splitAt p cs).flatMap capitalize).head? =
      (cs.find? fun c => !p c).bind fun c => (upperChar c).head? := by
  induction cs with
  | nil => rfl
  | cons c cs ih =>
    rw [splitAt]
    by_cases hc : p c = true
    · rw [if_pos hc, List.find?_cons_of_neg (by simp [hc]), ← ih]
      rfl
    · obtain ⟨piece, pieces, hpieces⟩ := List.exists_cons_of_ne_nil (splitAt_ne_nil p cs)
      obtain ⟨d, ds, hd⟩ := List.exists_cons_of_ne_nil (upperChar_ne_nil c)
      rw [if_neg hc, List.find?_cons_of_pos (by simp [hc]), hpieces]
      simp [consPiece, capitalize, hd]

/-- The characters of capitalized words are those of the words and of their capital forms. -/
theorem mem_capitalized {d : Char} (h : d ∈ (splitAt p cs).flatMap capitalize) :
    ∃ c ∈ cs, d = c ∨ d ∈ upperChar c := by
  obtain ⟨piece, hpiece, hd⟩ := List.mem_flatMap.mp h
  cases piece with
  | nil => cases hd
  | cons c cs =>
    have hsub := subset_of_mem_splitAt hpiece
    rcases List.mem_append.mp hd with hupper | hrest
    · exact ⟨c, hsub List.mem_cons_self, Or.inr hupper⟩
    · exact ⟨d, hsub (List.mem_cons_of_mem c hrest), Or.inl rfl⟩

end

/-! ## Variants of words -/

/-- The first character of a name that its variant shows. -/
def firstShown? (name : String) : Option Char := name.toList.find? fun c => !(c == '-' || c == '_')

theorem head?_toPascalCase (name : String) :
    (toPascalCase name).toList.head? = (firstShown? name).bind fun c => (upperChar c).head? := by
  rw [toPascalCase, String.toList_ofList, head?_capitalized, firstShown?]

/-- The variant of a name is its capitalized form, led by `Member` if that starts with a digit or
with nothing, or if it is `Self`. -/
theorem toVariantName_eq (name : String) :
    (toVariantName name = toPascalCase name ∧ toPascalCase name ≠ "Self" ∧
      ∃ d, (toPascalCase name).toList.head? = some d ∧ d.isDigit = false) ∨
    (toVariantName name = "Member" ++ toPascalCase name ∧
      (toPascalCase name = "Self" ∨
        ∀ d, (toPascalCase name).toList.head? = some d → d.isDigit = true)) := by
  rw [toVariantName]
  -- The first character decides, unless the whole name is `Self`.
  split
  · next c cs heq =>
    split
    · next h =>
      rw [Bool.and_eq_true, Bool.not_eq_true', bne_iff_ne] at h
      exact Or.inl ⟨rfl, h.2, c, by rw [heq]; rfl, h.1⟩
    · next h =>
      refine Or.inr ⟨rfl, ?_⟩
      by_cases hself : toPascalCase name = "Self"
      · exact Or.inl hself
      · right
        intro d hd
        rw [heq] at hd
        obtain rfl := Option.some.inj hd
        simpa [hself] using h
  -- An empty name gets `Member` in front of it as well.
  · next heq =>
    refine Or.inr ⟨rfl, Or.inr fun d hd => ?_⟩
    rw [heq] at hd
    cases hd

/-- The variant of a branch is that of its member's name with digits after it. -/
theorem variant_eq_append {members : List Member} {b : Branch} (h : b ∈ (branches members).value) :
    ∃ digits : List Char, (∀ c ∈ digits, c.isDigit = true) ∧
      b.variant.toList = (toVariantName b.member.name).toList ++ digits := by
  obtain ⟨before, after, heq⟩ := List.append_of_mem h
  have hvariant := variant_branchesAfter heq
  by_cases htaken : toVariantName b.member.name ∈ (before.map Branch.variant).reverse ++ []
  · obtain ⟨n, -, hnumber, -⟩ := freshVariant_of_mem htaken
    refine ⟨(toString n).toList, fun c hc => ?_, by rw [hvariant, hnumber, String.toList_append]⟩
    exact Nat.isDigit_of_mem_toDigits (by omega) (by omega) (Nat.toList_repr ▸ hc)
  · rw [freshVariant_of_notMem htaken] at hvariant
    exact ⟨[], by simp, by simp [hvariant]⟩

theorem member_mem_of_mem_branches {members : List Member} {b : Branch}
    (h : b ∈ (branches members).value) : b.member ∈ members := by
  have hmem : b.member ∈ (branches members).value.map Branch.member := List.mem_map_of_mem h
  rw [map_member_branches] at hmem
  exact firstOfKeys_sublist.subset hmem

/-- Whether a text can name a variant: it is read as an identifier and no word is reserved for it.
-/
def IsVariantName (v : String) : Prop := (Ident.plain v).Lexical ∧ (Ident.plain v).isName = true

instance : DecidablePred IsVariantName := fun _ => inferInstanceAs (Decidable (_ ∧ _))

section

variable {name : String} (hname : IsWord name.toList)

include hname

theorem isIdentContinue_toVariantName :
    ∀ c ∈ (toVariantName name).toList, isIdentContinue c = true := by
  have hpascal : ∀ c ∈ (toPascalCase name).toList, isIdentContinue c = true := by
    intro d hd
    rw [toPascalCase, String.toList_ofList] at hd
    obtain ⟨c, hc, rfl | hupper⟩ := mem_capitalized hd
    · exact hname.isIdentContinue _ hc
    · exact isIdentContinue_upperChar (hname.isIdentContinue c hc) d hupper
  have hmember : ∀ c ∈ "Member".toList, isIdentContinue c = true :=
    List.all_eq_true.mp (by decide)
  rcases toVariantName_eq name with ⟨heq, -⟩ | ⟨heq, -⟩
  · exact heq ▸ hpascal
  · simp only [heq, String.toList_append]
    exact List.forall_mem_append.mpr ⟨hmember, hpascal⟩

/-- The first character of a variant starts an identifier exactly if `Member` is put before the name
or the first character that is shown starts one. -/
theorem head?_toVariantName :
    ∃ d, (toVariantName name).toList.head? = some d ∧ StartsNoKeyword d ∧
      (isIdentStart d = true ↔ ∀ c, firstShown? name = some c →
        isIdentStart c = true ∨ c.isDigit = true ∨ c = '\u0345') := by
  have hpascal := head?_toPascalCase name
  have hshown : ∀ c, firstShown? name = some c → c ≠ '_' ∧ isIdentContinue c = true := by
    intro c hc
    have hne := List.find?_some hc
    refine ⟨?_, hname.isIdentContinue c (List.mem_of_find?_eq_some hc)⟩
    rintro rfl
    cases hne
  rcases toVariantName_eq name with ⟨heq, -, d, hd, hdigit⟩ | ⟨heq, hled⟩
  · rw [heq]
    rw [hd] at hpascal
    obtain ⟨c, hc, hupper⟩ := Option.bind_eq_some_iff.mp hpascal.symm
    obtain ⟨hne, hcontinue⟩ := hshown c hc
    obtain ⟨e, he, hstart, hsame⟩ := head?_upperChar hcontinue
    obtain rfl : d = e := Option.some.inj (hupper.symm.trans he)
    refine ⟨d, hd, startsNoKeyword_upperChar hne hupper, ?_⟩
    simp [hc, hstart, ← hsame, hdigit]
  · refine ⟨'M', by simp [heq], by decide, iff_of_true (by decide) fun c hc => ?_⟩
    obtain ⟨-, hcontinue⟩ := hshown c hc
    obtain ⟨e, he, hstart, hsame⟩ := head?_upperChar hcontinue
    rw [hc, Option.bind_some, he] at hpascal
    rcases hled with hself | hdigit
    · -- `Self` starts with a letter
      rw [hself] at hpascal
      obtain rfl : 'S' = e := Option.some.inj hpascal
      rcases hstart.mp (by decide) with h | h
      · exact Or.inl h
      · exact Or.inr (Or.inr h)
    · exact Or.inr (Or.inl (hsame ▸ hdigit e hpascal))

end

/-- A text that starts no reserved word, and is not `Self`, can name something. -/
theorem isName_of_startsNoKeyword {v : String} {d : Char} (hd : v.toList.head? = some d)
    (hstart : StartsNoKeyword d) (hself : v ≠ "Self") : (Ident.plain v).isName = true := by
  have hreserved : ∀ w ∈ Ident.reserved,
      w = "Self" ∨ w.toList.head?.any (fun c => StartsNoKeyword c) = false := by
    decide
  have hmem : v ∉ Ident.reserved := by
    intro hmem
    rcases hreserved v hmem with heq | hno
    · exact hself heq
    · rw [hd, Option.any_some, decide_eq_false_iff_not] at hno
      exact hno hstart
  simp [Ident.isName, Ident.plain, hmem]

theorem toVariantName_ne_self (name : String) : toVariantName name ≠ "Self" := by
  rcases toVariantName_eq name with ⟨heq, hself, -⟩ | ⟨heq, -⟩
  · exact heq ▸ hself
  · rw [heq]
    intro hself
    have hhead := congrArg (fun s : String => s.toList.head?) hself
    simp at hhead

/-- A variant with a number is not `Self`. -/
theorem append_digits_ne_self {x : String} {digits : List Char} (hx : x ≠ "Self")
    (hdigits : ∀ c ∈ digits, c.isDigit = true) {v : String} (hv : v.toList = x.toList ++ digits) :
    v ≠ "Self" := by
  rintro rfl
  have hlast := congrArg List.getLast? hv
  cases hdigit : digits.getLast? with
  | none =>
    rw [List.getLast?_eq_none_iff.mp hdigit, List.append_nil] at hv
    exact hx (String.toList_injective hv.symm)
  | some c =>
    rw [List.getLast?_append, hdigit] at hlast
    obtain rfl : 'f' = c := Option.some.inj hlast
    have h := hdigits 'f' (List.mem_of_getLast? hdigit)
    revert h
    decide

/-- If the name of a member is a word, all characters of its variant continue identifiers. -/
theorem isIdentContinue_variant {members : List Member} {b : Branch}
    (hb : b ∈ (branches members).value) (hname : IsWord b.member.name.toList) :
    ∀ c ∈ b.variant.toList, isIdentContinue c = true := by
  obtain ⟨digits, hdigits, heq⟩ := variant_eq_append hb
  rw [heq]
  exact List.forall_mem_append.mpr
    ⟨isIdentContinue_toVariantName hname, fun c hc => isIdentContinue_of_isDigit (hdigits c hc)⟩

theorem isWord_iff_of_head? {cs : List Char} {d : Char} (hd : cs.head? = some d)
    (hcontinue : ∀ c ∈ cs, isIdentContinue c = true) : IsWord cs ↔ isIdentStart d = true := by
  obtain ⟨more, rfl⟩ := List.head?_eq_some_iff.mp hd
  rw [Token.isWord_cons_iff, Bool.and_eq_true, List.all_eq_true]
  exact and_iff_left fun c hc => hcontinue c (List.mem_cons_of_mem d hc)

/-- If the names of members are words, their variants are not empty, no reserved words, and consist
of characters that continue identifiers. A variant can name something exactly if the first character
of the member's name that is shown, if there is one, starts identifiers, is an ASCII digit or is the
combining iota. -/
theorem variants_legal_iff {members : List Member}
    (hnames : ∀ m ∈ members, IsWord m.name.toList) :
    ∀ b ∈ (branches members).value,
      (IsVariantName b.variant ↔ ∀ c, firstShown? b.member.name = some c →
        isIdentStart c = true ∨ c.isDigit = true ∨ c = '\u0345') ∧
      b.variant ≠ "" ∧ (∀ c ∈ b.variant.toList, isIdentContinue c = true) ∧
      (Ident.plain b.variant).isName = true := by
  intro b hb
  have hname := hnames b.member (member_mem_of_mem_branches hb)
  -- A variant is its name and perhaps a number; its first character is the name's.
  obtain ⟨digits, hdigits, heq⟩ := variant_eq_append hb
  obtain ⟨d, hd, hkeyword, hstart⟩ := head?_toVariantName hname
  have hhead : b.variant.toList.head? = some d := by rw [heq, List.head?_append, hd, Option.some_or]
  have hcontinue := isIdentContinue_variant hb hname
  have hfree : (Ident.plain b.variant).isName = true :=
    isName_of_startsNoKeyword hhead hkeyword
      (append_digits_ne_self (toVariantName_ne_self _) hdigits heq)
  refine ⟨?_, ?_, hcontinue, hfree⟩
  · rw [← hstart, ← isWord_iff_of_head? hhead hcontinue]
    have hlexical : (Ident.plain b.variant).Lexical ↔ IsWord b.variant.toList :=
      and_iff_left nofun
    rw [IsVariantName, and_iff_left hfree, hlexical]
  -- A variant has a first character, hence it is not empty.
  · intro hempty
    rw [hempty] at hhead
    cases hhead

/-- Names that begin with underscores, that would be empty or a reserved word, that start with a
digit or a combining iota, and that need a number. -/
theorem variants_legal_iff_underscores :
    let members : List Member :=
      [⟨"_1", "_1", "u8", true, .nonNullable⟩, ⟨"__", "__", "u8", true, .nonNullable⟩,
        ⟨"self_", "self_", "u8", true, .nonNullable⟩, ⟨"type", "r#type", "u8", true, .nonNullable⟩,
        ⟨"_\u0345", "_\u0345", "u8", true, .nonNullable⟩,
        ⟨"_ßa", "_ßa", "u8", true, .nonNullable⟩, ⟨"ssa", "ssa", "u8", true, .nonNullable⟩,
        ⟨"SSa", "SSa", "u16", true, .nonNullable⟩]
    (∀ m ∈ members, IsWord m.name.toList) ∧
      (branches members).value.map Branch.variant =
        ["Member1", "Member", "MemberSelf", "Type", "Ι", "SSa", "Ssa", "SSa2"] ∧
      ∀ b ∈ (branches members).value, IsVariantName b.variant := by
  intro members
  have hnames : ∀ m ∈ members, IsWord m.name.toList := by decide +kernel
  have hshown : ∀ b ∈ (branches members).value, (firstShown? b.member.name).all (fun c =>
      isIdentStart c = true ∨ c.isDigit = true ∨ c = '\u0345') = true := by decide +kernel
  refine ⟨hnames, by decide +kernel, fun b hb => (variants_legal_iff hnames b hb).1.mpr ?_⟩
  intro c hc
  have hfirst := hshown b hb
  rw [hc, Option.all_some] at hfirst
  exact of_decide_eq_true hfirst

/-- A digit of another script comes to the front of a variant. -/
theorem variant_starts_with_digit :
    let m : Member := ⟨"_٣", "_٣", "u8", true, .nonNullable⟩
    IsWord m.name.toList ∧ (branches [m]).value = [⟨m, "٣"⟩] ∧ ¬IsVariantName "٣" := by
  decide +kernel

end Memberwise
