import Memberwise.Proofs.CanonicalForm
import Memberwise.Proofs.LiteralText
import Memberwise.Proofs.TypeReading

/-!
# Memberwise.Proofs.Spelling — the texts of canonical types are read again

The text of a canonical form falls into the tokens of the written type that spells it out, as long
as its names are words that can stand in a path: keywords lost their `r#`, so they are not.
`parseType_of_readable` then says which type the text is read as. A text that has several bounds
where no plus sign is read is left out by `SourceType.Fits`.
-/

namespace Memberwise

open Source Token

/-! ## Readable leaves -/

/-- What follows a type in a text. -/
def EndsType (rest : List Char) : Prop :=
  ∀ c, rest.head? = some c → c ∈ [',', '>', ')', ']', ';', ' ']

/-- Whether the arguments stand in angle brackets. -/
def Source.PathArguments.isAngle : PathArguments → Bool
  | .angle .. => true
  | _ => false

/-- A segment of a path that is read again: its name is a word, no keyword of another kind, and
takes its arguments. -/
def ReadableSegment (s : PathSegment) : Prop :=
  s.name.Lexical ∧ isSegment s.name = true ∧ (isLone s.name && s.arguments.isAngle) = false

instance (s : PathSegment) : Decidable (ReadableSegment s) :=
  inferInstanceAs (Decidable (_ ∧ _ ∧ _))

/-- A path that is read again. -/
def ReadablePath (p : SourcePath) : Prop :=
  (p.absolute = false → (p.segments.head?.any fun s => isHead s.name) = true) ∧
    ∀ s ∈ p.segments, ReadableSegment s

instance (p : SourcePath) : Decidable (ReadablePath p) := inferInstanceAs (Decidable (_ ∧ _))

/-- A length of an array whose text is read as the length again. -/
def ReadableLength (length : List TokenTree) : Prop :=
  ∀ rest, ∃ ts, Lexes (TokenTree.textAll length).toList ts (']' :: rest) ∧ RereadsLength length ts

/-- A constant whose text is read as the constant again. -/
def ReadableConst (tokens : List TokenTree) : Prop :=
  ∀ rest, EndsType rest →
    ∃ ts, Lexes (TokenTree.textAll tokens).toList ts rest ∧ RereadsConst tokens ts

/-- A function pointer whose text is read as the function pointer again. -/
def ReadableFunction (tokens : List TokenTree) : Prop :=
  ∀ rest, EndsType rest →
    ∃ ts, Lexes (SourceType.function tokens).written.toList ts rest ∧ RereadsFunction tokens ts

/-- Leaves whose texts are read as the leaves again. -/
def Leaves.readable : Leaves where
  typePath := ReadablePath
  traitPath := ReadablePath
  lifetime := Ident.Lexical
  associated i := i.Lexical ∧ isHead i = true
  length := ReadableLength
  const := ReadableConst
  function := ReadableFunction
  object bounds := bounds.any TypeBound.isTrait = true

/-! ## Texts of parts -/

/-- What ends a type ends a word. -/
theorem EndsType.endsWord {rest : List Char} (h : EndsType rest) : EndsWord rest := by
  intro c hc
  have hends : ∀ d ∈ [',', '>', ')', ']', ';', ' '],
      Text.isIdentContinue d = false ∧ d ∉ ['"', '\'', '#'] := forall_mem_of_all (by decide)
  exact hends c (h c hc)

/-- What ends a type ends a token. -/
theorem EndsType.endsToken {rest : List Char} (h : EndsType rest) : EndsToken rest := by
  have hends : ∀ d ∈ [',', '>', ')', ']', ';', ' '], d ∈ tokenEnds := forall_mem_of_all (by decide)
  exact fun c hc => hends c (h c hc)

/-- A type ends with the text. -/
theorem EndsType.nil : EndsType [] := by
  intro c hc
  cases hc

/-- A type ends before a sign that closes or separates. -/
theorem EndsType.cons {c : Char} (h : c ∈ [',', '>', ')', ']', ';', ' ']) (cs : List Char) :
    EndsType (c :: cs) := by
  intro d hd
  cases hd
  exact h

/-- A type ends before a space. -/
theorem EndsType.space (cs : List Char) : EndsType (' ' :: cs) := EndsType.cons (by decide) cs

/-- An operator character before a text. -/
theorem lexes_punct_cons {c : Char} (h : c ∈ punctuation) (hslash : c ≠ '/') {cs rest : List Char}
    {ts : List TokenTree} (hcs : Lexes cs ts rest) :
    Lexes (c :: cs) (.punct c (startsPunct (cs ++ rest)) :: ts) rest :=
  Lexes.append (Lexes.punct h hslash (cs ++ rest)) hcs

/-- Double colons before a text. -/
theorem lexes_colons {cs rest : List Char} {ts : List TokenTree} (hcs : Lexes cs ts rest) :
    Lexes (':' :: ':' :: cs) (colons (startsPunct (cs ++ rest)) ++ ts) rest := by
  have hfirst := lexes_punct_cons (c := ':') (by decide) (by decide)
    (lexes_punct_cons (c := ':') (by decide) (by decide) hcs)
  rw [List.cons_append, startsPunct_cons (by decide) (by decide)] at hfirst
  exact hfirst

/-- A word before a text. -/
theorem lexes_word {word : String} (h : IsWord word.toList) {cs rest : List Char}
    {ts : List TokenTree} (hcs : Lexes cs ts rest) (hends : EndsWord (cs ++ rest)) :
    Lexes (word.toList ++ cs) (wordToken word :: ts) rest := by
  have hlexical : (Ident.plain word).Lexical := ⟨h, fun hraw => by cases hraw⟩
  have hlexes := Lexes.ident hlexical hends
  rw [toList_text_plain rfl] at hlexes
  exact hlexes.append hcs

/-- The name of a segment before a text. -/
theorem lexes_name {i : Ident} (hraw : i.raw = false) (h : i.Lexical) {cs rest : List Char}
    {ts : List TokenTree} (hcs : Lexes cs ts rest) (hends : EndsWord (cs ++ rest)) :
    Lexes (i.name.toList ++ cs) (.ident i :: ts) rest := by
  rw [← toList_text_plain hraw]
  exact (Lexes.ident h hends).append hcs

/-- Brackets around a text. -/
theorem lexes_parentheses {cs rest : List Char} {ts : List TokenTree}
    (h : Lexes cs ts (')' :: rest)) :
    Lexes ('(' :: cs ++ [')']) [.group .parenthesis ts] rest :=
  Lexes.group ⟨by decide, by decide⟩ ⟨by decide, by decide⟩ rfl rfl rfl h

/-- Square brackets around a text. -/
theorem lexes_brackets {cs rest : List Char} {ts : List TokenTree} (h : Lexes cs ts (']' :: rest)) :
    Lexes ('[' :: cs ++ [']']) [.group .bracket ts] rest :=
  Lexes.group ⟨by decide, by decide⟩ ⟨by decide, by decide⟩ rfl rfl rfl h

/-! ## Texts of paths -/

/-- The text of segments, if that of the last one, which can have arguments, is read as it. -/
theorem lexes_segments {trait : Bool} {segments : List PathSegment} {suffix rest : List Char}
    (h : SegmentsCanonical .readable trait segments) (hreadable : ∀ s ∈ segments, ReadableSegment s)
    (hlast : ∀ s, segments.getLast? = some s →
      ∃ ls, Lexes (s.name.name.toList ++ suffix) ls rest ∧ SpellsLast trait s ls) :
    ∃ ts, Lexes (("::".intercalate (segments.map fun s => s.name.name)).toList ++ suffix) ts rest ∧
      SpellsSegments trait segments ts := by
  -- Induction on the segments: what ends the path is read first, then one name at a time.
  induction segments with
  | nil => exact h.elim
  | cons s more ih =>
    rcases s with ⟨i, arguments⟩
    cases more with
    | nil =>
      rcases hlast _ rfl with ⟨ls, hls, hspells⟩
      exact ⟨ls, by simpa using hls, hspells⟩
    | cons next more =>
      rcases h with ⟨hraw, hnone, hmore⟩
      rcases hreadable _ List.mem_cons_self with ⟨hi, hsegment, -⟩
      obtain ⟨ts, hts, hspells⟩ := ih hmore (fun s hs => hreadable s (List.mem_cons_of_mem _ hs))
        fun s hs => hlast s (by rwa [List.getLast?_cons_cons])
      have hall := lexes_name hraw hi (lexes_colons hts) (EndsWord.cons (by decide) _)
      have htext : ("::".intercalate ((PathSegment.mk i arguments :: next :: more).map
          fun s => s.name.name)).toList ++ suffix = i.name.toList ++ ':' :: ':' ::
            (("::".intercalate ((next :: more).map fun s => s.name.name)).toList ++ suffix) := by
        rw [List.map_cons, List.map_cons, String.intercalate_cons_cons]
        simp [PathSegment.name]
      rw [htext]
      exact ⟨_, hall, hnone, hsegment, _, ts, hspells, rfl⟩

/-- The text of a path is its names with double colons. -/
theorem text_namePath (absolute : Bool) (segments : List PathSegment) :
    (SourcePath.mk absolute segments).namePath.text =
      (if absolute then "::" else "") ++ "::".intercalate (segments.map fun s => s.name.name) := rfl

/-- The text of a path, if that of its last segment is read as it. -/
theorem lexes_path {trait : Bool} {p : SourcePath} {suffix : String} {rest : List Char}
    (h : p.Canonical .readable trait) (hreadable : ReadablePath p)
    (hlast : ∀ s, p.segments.getLast? = some s →
      ∃ ls, Lexes (s.name.name.toList ++ suffix.toList) ls rest ∧ SpellsLast trait s ls) :
    ∃ ts, Lexes (p.namePath.text ++ suffix).toList ts rest ∧ SpellsPath trait p ts := by
  rcases p with ⟨absolute, segments⟩
  rcases lexes_segments h hreadable.2 hlast with ⟨ts, hts, hspells⟩
  cases absolute with
  -- Only a relative path has to start with a name that may stand first.
  | true =>
    have htext : ((SourcePath.mk true segments).namePath.text ++ suffix).toList = ':' :: ':' ::
        (("::".intercalate (segments.map fun s => s.name.name)).toList ++ suffix.toList) := by
      rw [text_namePath, if_pos rfl, String.toList_append, String.toList_append]
      simp
    rw [htext]
    exact ⟨_, lexes_colons hts, _, ts, hspells, rfl⟩
  | false =>
    have htext : ((SourcePath.mk false segments).namePath.text ++ suffix).toList =
        ("::".intercalate (segments.map fun s => s.name.name)).toList ++ suffix.toList := by
      rw [text_namePath, if_neg (by simp), String.toList_append, String.toList_append]
      simp
    rw [htext]
    exact ⟨ts, hts, hreadable.1 rfl, hspells⟩

section

variable {i : Ident} {trait : Bool} {rest : List Char}

/-- A name without arguments is read as the last segment. -/
theorem lexes_last_none (hraw : i.raw = false) (hi : i.Lexical) (hsegment : isSegment i = true)
    (hrest : EndsType rest) :
    ∃ ls, Lexes (i.name.toList ++ "".toList) ls rest ∧ SpellsLast trait (.mk i .none) ls :=
  ⟨_, lexes_name hraw hi (Lexes.nil rest) hrest.endsWord, hsegment, rfl⟩

/-- A name with arguments in brackets is read as the last segment. -/
theorem lexes_last_angle {args : List GenericArgument} {text : String} {us : List TokenTree}
    (hraw : i.raw = false) (hs : ReadableSegment (.mk i (.angle false args false)))
    (htext : Lexes text.toList us ('>' :: rest)) (hus : SpellsArgs args us) :
    ∃ ls, Lexes (i.name.toList ++ ("<" ++ text ++ ">").toList) ls rest ∧
      SpellsLast trait (.mk i (.angle false args false)) ls := by
  rcases hs with ⟨hi, hsegment, harguments⟩
  -- Words that stand alone take no arguments, so the segment is none of them.
  have hlone : isLone i = false := by
    rw [Bool.and_eq_false_iff] at harguments
    exact harguments.resolve_right (by simp [PathSegment.arguments, PathArguments.isAngle])
  have hangle := lexes_punct_cons (c := '<') (by decide) (by decide)
    (htext.append (Lexes.punct (c := '>') (by decide) (by decide) rest))
  have hall := lexes_name hraw hi hangle (EndsWord.cons (by decide) _)
  have heq : ("<" ++ text ++ ">").toList = '<' :: (text.toList ++ ['>']) := by simp
  rw [heq]
  exact ⟨_, hall, rfl, rfl, hsegment, hlone, _, _, us, hus, rfl⟩

/-- A name with the inputs of a call is read as the last segment of a trait. -/
theorem lexes_last_call {inputs : List SourceType} {text : String} {us : List TokenTree}
    (hraw : i.raw = false) (hi : i.Lexical) (hsegment : isSegment i = true)
    (htext : Lexes text.toList us (')' :: rest)) (hus : SpellsTypes inputs us) :
    ∃ ls, Lexes (i.name.toList ++ ("(" ++ text ++ ")").toList) ls rest ∧
      SpellsLast true (.mk i (.call inputs false none)) ls := by
  have hall := lexes_name hraw hi (lexes_parentheses htext) (EndsWord.cons (by decide) _)
  have heq : ("(" ++ text ++ ")").toList = '(' :: text.toList ++ [')'] := by simp
  rw [heq]
  exact ⟨_, hall, rfl, rfl, hsegment, us, hus, rfl⟩

/-- A name with the inputs and the output of a call is read as the last segment of a trait. -/
theorem lexes_last_output {inputs : List SourceType} {output : SourceType} {text result : String}
    {us ws : List TokenTree} (hraw : i.raw = false) (hi : i.Lexical) (hsegment : isSegment i = true)
    (htext : Lexes text.toList us (')' :: (' ' :: '-' :: '>' :: ' ' :: result.toList ++ rest)))
    (hus : SpellsTypes inputs us) (hresult : Lexes result.toList ws rest)
    (hws : SpellsType output ws) :
    ∃ ls, Lexes (i.name.toList ++ ("(" ++ text ++ ") -> " ++ result).toList) ls rest ∧
      SpellsLast true (.mk i (.call inputs false (some output))) ls := by
  -- The arrow is two signs that are joined, with a space on either side.
  have harrow := lexes_punct_cons (c := '-') (by decide) (by decide)
    (lexes_punct_cons (c := '>') (by decide) (by decide) hresult.space)
  rw [List.cons_append, startsPunct_cons (by decide) (by decide)] at harrow
  have hcall := (lexes_parentheses htext).append harrow.space
  have hall := lexes_name hraw hi hcall (EndsWord.cons (by decide) _)
  have heq : ("(" ++ text ++ ") -> " ++ result).toList =
      '(' :: text.toList ++ [')'] ++ ' ' :: '-' :: '>' :: ' ' :: result.toList := by simp
  rw [heq]
  exact ⟨_, hall, rfl, rfl, hsegment, us, _, ws, hus, hws, rfl⟩

end

/-! ## Texts of lists -/

/-- The text between two texts of a list: it ends the first, and is read as the sign `c` before the
second. -/
structure IsSeparator (separator : String) (c : Char) : Prop where
  ends : ∀ more : List Char, EndsType (separator.toList ++ more)
  reads : ∀ {more : List Char} {ws : List TokenTree} {rest : List Char}, Lexes more ws rest →
    ∃ joint, Lexes (separator.toList ++ more) (.punct c joint :: ws) rest

/-- A comma is followed by a space. -/
theorem isSeparator_comma : IsSeparator ", " ',' where
  ends more := EndsType.cons (c := ',') (by decide) (' ' :: more)
  reads h := ⟨_, lexes_punct_cons (c := ',') (by decide) (by decide) h.space⟩

/-- A plus sign stands between spaces. -/
theorem isSeparator_plus : IsSeparator " + " '+' where
  ends more := EndsType.space ('+' :: ' ' :: more)
  reads h := ⟨_, (lexes_punct_cons (c := '+') (by decide) (by decide) h.space).space⟩

/-- Texts that are read one by one are read in a list with separators, where `P` says how one
element is spelled and `S` how they are together. -/
theorem lexes_separated {α : Type} {P : α → List TokenTree → Prop}
    {S : List α → List TokenTree → Prop} {separator : String} {c : Char}
    (hseparator : IsSeparator separator c) (hone : ∀ {w us}, P w us → S [w] us)
    (hmore : ∀ {w v ws us joint ys}, P w us → S (v :: ws) ys →
      S (w :: v :: ws) (us ++ .punct c joint :: ys)) {ws : List α} {texts : List String}
    (h : List.Forall₂ (fun w text => ∀ rest, EndsType rest →
      ∃ us, Lexes text.toList us rest ∧ P w us) ws texts)
    (hne : ws ≠ []) {rest : List Char} (hrest : EndsType rest) :
    ∃ us, Lexes (separator.intercalate texts).toList us rest ∧ S ws us := by
  induction h with
  | nil => exact absurd rfl hne
  | @cons w text ws texts hw htail ih =>
    -- whether a separator follows depends on the tail, so it is opened once more
    cases htail with
    | nil =>
      rw [String.intercalate_singleton]
      obtain ⟨us, hus, hspells⟩ := hw rest hrest
      exact ⟨us, hus, hone hspells⟩
    | @cons v next ws texts _ _ =>
      obtain ⟨ys, hys, hspellsMore⟩ := ih (List.cons_ne_nil v ws)
      obtain ⟨joint, hsign⟩ := hseparator.reads hys
      obtain ⟨us, hus, hspells⟩ := hw _ (List.append_assoc .. ▸ hseparator.ends _)
      rw [String.intercalate_cons_cons, String.toList_append, String.toList_append,
        List.append_assoc]
      exact ⟨_, hus.append hsign, hmore hspells hspellsMore⟩

/-! ## Texts of types -/

/-- The words that stand in front of types. -/
theorem isWord_of_mark : ∀ word ∈ ["dyn", "mut", "const"], IsWord word.toList := by decide

/-- A word and a space before a text. -/
theorem lexes_mark (word : String) (h : word ∈ ["dyn", "mut", "const"]) {text : String}
    {us : List TokenTree} {rest : List Char} (htext : Lexes text.toList us rest) :
    Lexes (word ++ " " ++ text).toList (wordToken word :: us) rest := by
  have hall := lexes_word (isWord_of_mark word h) htext.space (EndsWord.cons (by decide) _)
  have heq : (word ++ " " ++ text).toList = word.toList ++ ' ' :: text.toList := by simp
  rwa [heq]

/-- The text of a reference is read if that of its target is. -/
theorem lexes_reference {lifetime : Option Ident} (mutable : Bool) {target : SourceType}
    {t : ResolvedType} {us : List TokenTree} {rest : List Char}
    (hlifetime : ∀ i, lifetime = some i → i.Lexical) (ht : Lexes t.text.toList us rest)
    (hus : SpellsType target us) :
    ∃ ts, Lexes (ResolvedType.reference (lifetime.map fun i => "'" ++ i.text) mutable t).text.toList
      ts rest ∧ SpellsType (.reference lifetime mutable target) ts := by
  -- The optional parts are put together from the back, where the target's text is known.
  have hmutable : Lexes ((if mutable then "mut " else "") ++ t.text).toList
      ((if mutable then [wordToken "mut"] else []) ++ us) rest := by
    cases mutable with
    | true => exact lexes_mark "mut" (by decide) ht
    | false => simpa using ht
  have hall : Lexes (((lifetime.map fun i => "'" ++ i.text).map (· ++ " ")).getD "" ++
      ((if mutable then "mut " else "") ++ t.text)).toList
      ((lifetime.map TokenTree.lifetime).toList ++
        ((if mutable then [wordToken "mut"] else []) ++ us)) rest := by
    cases lifetime with
    | none => simpa using hmutable
    | some i =>
      have hi := Lexes.lifetime (hlifetime i rfl) (EndsWord.cons (c := ' ') (by decide)
        (((if mutable then "mut " else "") ++ t.text).toList ++ rest))
      simpa using hi.append hmutable.space
  have heq : (ResolvedType.reference (lifetime.map fun i => "'" ++ i.text) mutable t).text.toList =
      '&' :: (((lifetime.map fun i => "'" ++ i.text).map (· ++ " ")).getD "" ++
        ((if mutable then "mut " else "") ++ t.text)).toList := by
    simp [ResolvedType.text]
  rw [heq]
  exact ⟨_, lexes_punct_cons (c := '&') (by decide) (by decide) hall, _, us, hus, rfl⟩

/-- The text of a pointer is read if that of its target is. -/
theorem lexes_pointer (mutable : Bool) {target : SourceType} {t : ResolvedType}
    {us : List TokenTree} {rest : List Char} (ht : Lexes t.text.toList us rest)
    (hus : SpellsType target us) :
    ∃ ts, Lexes (ResolvedType.pointer mutable t).text.toList ts rest ∧
      SpellsType (.pointer mutable target) ts := by
  have hmark : Lexes ((if mutable then "mut" else "const") ++ " " ++ t.text).toList
      (wordToken (if mutable then "mut" else "const") :: us) rest := by
    cases mutable with
    | true => exact lexes_mark "mut" (by decide) ht
    | false => exact lexes_mark "const" (by decide) ht
  have heq : (ResolvedType.pointer mutable t).text.toList =
      '*' :: ((if mutable then "mut" else "const") ++ " " ++ t.text).toList := by
    simp [ResolvedType.text]
  rw [heq]
  exact ⟨_, lexes_punct_cons (c := '*') (by decide) (by decide) hmark, _, us, hus, rfl⟩

/-- The comma after a single element is part of the text. -/
theorem lexes_tuple {ws : List SourceType} {ts : List ResolvedType} {trailing : Bool}
    {rest : List Char} (hlength : ws.length = ts.length) (htrailing : trailing = (ws.length == 1))
    (hlexes : ∀ next, EndsType next →
      ∃ us, Lexes (", ".intercalate (typeTexts ts)).toList us next ∧ SpellsTypes ws us) :
    ∃ us, Lexes (ResolvedType.tuple ts).text.toList us rest ∧
      SpellsType (.tuple ws trailing) us := by
  subst htrailing
  have hclose := EndsType.cons (c := ')') (by decide) rest
  match ws, ts, hlength with
  | [], [], _ =>
    have heq : (ResolvedType.tuple []).text.toList = '(' :: [] ++ [')'] := by
      simp [ResolvedType.text, typeTexts]
    rw [heq]
    exact ⟨_, lexes_parentheses (Lexes.nil _), rfl, rfl⟩
  | [w], [t], _ =>
    -- one element: the comma belongs to the text, so the element is followed by it
    rcases hlexes (',' :: ')' :: rest) (EndsType.cons (by decide) _) with ⟨us, hus, hspells⟩
    rw [typeTexts, typeTexts, String.intercalate_singleton] at hus
    have hall := lexes_parentheses
      (hus.append (Lexes.punct (c := ',') (by decide) (by decide) (')' :: rest)))
    have heq : (ResolvedType.tuple [t]).text.toList = '(' :: (t.text.toList ++ [',']) ++ [')'] := by
      simp [ResolvedType.text, typeTexts]
    rw [heq]
    exact ⟨_, hall, rfl, us, _, [], hspells, rfl, rfl⟩
  | w :: v :: more, t :: u :: ts, _ =>
    rcases hlexes (')' :: rest) hclose with ⟨us, hus, hspells⟩
    rcases hspells with ⟨xs, joint, ys, hxs, hys, rfl⟩
    have heq : (ResolvedType.tuple (t :: u :: ts)).text.toList =
        '(' :: (", ".intercalate (typeTexts (t :: u :: ts))).toList ++ [')'] := by
      simp [ResolvedType.text]
    rw [heq]
    exact ⟨_, lexes_parentheses hus, by simp, xs, joint, ys, hxs, hys, rfl⟩

/-- Types that are read one by one are read in a list. -/
theorem lexes_types {ws : List SourceType} {ts : List ResolvedType}
    (h : List.Forall₂ (fun w t => w.Canonical .readable → ∀ rest, EndsType rest →
      ∃ us, Lexes t.text.toList us rest ∧ SpellsType w us) ws ts)
    (hws : TypesCanonical .readable ws) {rest : List Char} (hrest : EndsType rest) :
    ∃ us, Lexes (", ".intercalate (typeTexts ts)).toList us rest ∧ SpellsTypes ws us := by
  have hall := forall₂_mp_mem h (typesCanonical_iff.mp hws)
  by_cases hne : ws = []
  · subst hne
    cases h
    exact ⟨[], Lexes.nil rest, rfl⟩
  · rw [typeTexts_eq_map]
    exact lexes_separated isSeparator_comma id (fun hw hmore => ⟨_, _, _, hw, hmore, rfl⟩)
      (List.forall₂_map_right_iff.mpr hall) hne hrest

/-- Arguments that are read one by one are read in a list. -/
theorem lexes_args {ws : List GenericArgument} {as : List GenericArg}
    (h : List.Forall₂ (fun w a => w.Canonical .readable → ∀ rest, EndsType rest →
      ∃ us, Lexes a.text.toList us rest ∧ SpellsArg w us) ws as)
    (hws : ArgsCanonical .readable ws) {rest : List Char} (hrest : EndsType rest) :
    ∃ us, Lexes (", ".intercalate (argTexts as)).toList us rest ∧ SpellsArgs ws us := by
  have hall := forall₂_mp_mem h (argsCanonical_iff.mp hws)
  by_cases hne : ws = []
  · subst hne
    cases h
    exact ⟨[], Lexes.nil rest, rfl⟩
  · rw [argTexts_eq_map]
    exact lexes_separated isSeparator_comma id (fun hw hmore => ⟨_, _, _, hw, hmore, rfl⟩)
      (List.forall₂_map_right_iff.mpr hall) hne hrest

/-- Bounds that are read one by one are read in a list; there is at least one. -/
theorem lexes_bounds {ws : List TypeBound} {bs : List String}
    (h : List.Forall₂ (fun w b => w.Canonical .readable → ∀ rest, EndsType rest →
      ∃ us, Lexes b.toList us rest ∧ SpellsBound w us) ws bs)
    (hws : BoundsCanonical .readable ws) (hne : ws ≠ []) {rest : List Char}
    (hrest : EndsType rest) :
    ∃ us, Lexes (" + ".intercalate bs).toList us rest ∧ SpellsBounds ws us := by
  have hall := forall₂_mp_mem h (boundsCanonical_iff.mp hws)
  exact lexes_separated isSeparator_plus id (fun hw hmore => ⟨_, _, _, hw, hmore, rfl⟩)
    hall hne hrest

/-- What readable arguments are resolved to is read as them behind the name of their segment. -/
def SpelledAfterName (trait : Bool) (a : PathArguments) (suffix : String) : Prop :=
  ∀ i, i.raw = false → ReadableSegment (.mk i a) → a.Canonical .readable trait →
    ∀ rest, EndsType rest →
      ∃ ls, Lexes (i.name.toList ++ suffix.toList) ls rest ∧ SpellsLast trait (.mk i a) ls

/-- The same for the last segment of a readable path. -/
theorem SpelledAfterName.lexes_path {trait : Bool} {absolute : Bool} {segments : List PathSegment}
    {s : PathSegment} {suffix : String} (hs : segments.getLast? = some s)
    (h : SpelledAfterName trait s.arguments suffix)
    (hcanonical : SegmentsCanonical .readable trait segments)
    (hreadable : ReadablePath (.mk absolute segments)) {rest : List Char} (hrest : EndsType rest) :
    ∃ ts, Lexes ((SourcePath.mk absolute segments).namePath.text ++ suffix).toList ts rest ∧
      SpellsPath trait (.mk absolute segments) ts := by
  obtain ⟨hplain, harguments⟩ := (segmentsCanonical_iff hs).mp hcanonical
  refine Memberwise.lexes_path hcanonical hreadable fun s' hs' => ?_
  obtain rfl : s' = s := Option.some.inj (hs'.symm.trans hs)
  cases s' with
  | mk i a =>
    have hreads := hreadable.2 _ (List.mem_of_getLast? hs)
    exact h i (hplain.raw_last hs) hreads harguments rest hrest

/-- The text of each form of readable type falls into its tokens. -/
theorem lexes_resolvedCases :
    ResolvedCases literalContext
      (fun w t => w.Canonical .readable → ∀ rest, EndsType rest →
        ∃ ts, Lexes t.text.toList ts rest ∧ SpellsType w ts)
      (fun a args => SpelledAfterName false a (argsSuffix args))
      (fun a suffix => SpelledAfterName true a suffix)
      (fun w a => w.Canonical .readable → ∀ rest, EndsType rest →
        ∃ us, Lexes a.text.toList us rest ∧ SpellsArg w us)
      (fun w b => w.Canonical .readable → ∀ rest, EndsType rest →
        ∃ us, Lexes b.toList us rest ∧ SpellsBound w us) where
  paren _ h := h.elim
  param {p _} hparam := by
    rw [param?_of_nil _ rfl p] at hparam
    cases hparam
  path _ hpath hs ih hnamed h rest hrest := by
    cases hpath
    cases hnamed
    rw [text_path]
    exact ih.lexes_path hs h.2 h.1 hrest
  reference {_ mutable _ _} ih h rest hrest := by
    obtain ⟨us, hus, hspells⟩ := ih h.2 rest hrest
    exact lexes_reference mutable h.1 hus hspells
  pointer {mutable _ _} ih h rest hrest := by
    obtain ⟨us, hus, hspells⟩ := ih h rest hrest
    exact lexes_pointer mutable hus hspells
  traitObject ih h rest hrest := by
    obtain ⟨rfl, rfl, hobject, hbounds⟩ := h
    obtain ⟨us, hus, hspells⟩ := lexes_bounds ih hbounds (by rintro rfl; cases hobject) hrest
    exact ⟨_, lexes_mark "dyn" (by decide) hus, rfl, rfl, hobject, us, hspells, rfl⟩
  tuple ih h _ _ := lexes_tuple ih.length_eq h.1 fun _ hnext => lexes_types ih h.2 hnext
  array {_ length u} ih h rest _ := by
    -- that the length is read again is part of being readable
    obtain ⟨ws, hws, hreads⟩ := h.2 rest
    obtain ⟨us, hus, hspells⟩ := ih h.1 _ (EndsType.cons (c := ';') (by decide)
      (' ' :: (TokenTree.textAll length).toList ++ ']' :: rest))
    have hall := lexes_brackets
      (hus.append (lexes_punct_cons (c := ';') (by decide) (by decide) hws.space))
    have heq : (ResolvedType.array u (TokenTree.textAll length)).text.toList =
        '[' :: (u.text.toList ++ ';' :: ' ' :: (TokenTree.textAll length).toList) ++ [']'] := by
      simp [ResolvedType.text]
    rw [heq]
    exact ⟨_, hall, us, _, ws, hspells, hreads, rfl⟩
  slice {_ u} ih h rest _ := by
    obtain ⟨us, hus, hspells⟩ := ih h _ (EndsType.cons (c := ']') (by decide) rest)
    have heq : (ResolvedType.slice u).text.toList = '[' :: u.text.toList ++ [']'] := by
      simp [ResolvedType.text]
    rw [heq]
    exact ⟨_, lexes_brackets hus, us, hspells, rfl⟩
  function h rest hrest := h rest hrest
  never _ rest _ := ⟨_, Lexes.punct (c := '!') (by decide) (by decide) rest, _, rfl⟩
  noArguments i hraw hs _ rest hrest := lexes_last_none hraw hs.1 hs.2.1 hrest
  angle {_ ws _ as} ih i hraw hs h rest hrest := by
    obtain ⟨rfl, rfl, hne, hcanonical⟩ := h
    have has : as ≠ [] := fun hnil => hne rfl (List.forall₂_nil_right_iff.mp (hnil ▸ ih))
    obtain ⟨us, hus, hspells⟩ :=
      lexes_args ih hcanonical (EndsType.cons (c := '>') (by decide) rest)
    rw [argsSuffix_of_ne_nil has]
    exact lexes_last_angle hraw hs hus hspells
  noSuffix i hraw hs _ rest hrest := lexes_last_none hraw hs.1 hs.2.1 hrest
  angleSuffix ih i hraw hs h rest hrest := by
    obtain ⟨rfl, rfl, -, hcanonical⟩ := h
    obtain ⟨us, hus, hspells⟩ :=
      lexes_args ih hcanonical (EndsType.cons (c := '>') (by decide) rest)
    exact lexes_last_angle hraw hs hus hspells
  callSuffix ih i hraw hs h rest hrest := by
    obtain ⟨-, rfl, hinputs⟩ := h
    obtain ⟨us, hus, hspells⟩ := lexes_types ih hinputs (EndsType.cons (c := ')') (by decide) rest)
    exact lexes_last_call hraw hs.1 hs.2.1 hus hspells
  outputSuffix {_ _ _ _ u} ihinputs ihoutput i hraw hs h rest hrest := by
    obtain ⟨-, rfl, hinputs, houtput⟩ := h
    obtain ⟨ws, hws, hresult⟩ := ihoutput houtput rest hrest
    obtain ⟨us, hus, hspells⟩ := lexes_types ihinputs hinputs
      (EndsType.cons (c := ')') (by decide) (' ' :: '-' :: '>' :: ' ' :: u.text.toList ++ rest))
    exact lexes_last_output hraw hs.1 hs.2.1 hus hspells hws hresult
  typeArgument ih h rest hrest := ih h rest hrest
  lifetimeArgument {i} h rest hrest := by
    have heq : (GenericArg.lifetime ("'" ++ i.text)).text.toList = '\'' :: i.text.toList := by
      simp [GenericArg.text]
    rw [heq]
    exact ⟨_, Lexes.lifetime h hrest.endsWord, rfl⟩
  constArgument h rest hrest := h rest hrest
  binding {i _ _ t} ih h rest hrest := by
    obtain ⟨⟨hi, hhead⟩, rfl, hw⟩ := h
    obtain ⟨us, hus, hspells⟩ := ih hw rest hrest
    have hvalue := (lexes_punct_cons (c := '=') (by decide) (by decide) hus.space).space
    have hall := (Lexes.ident hi (EndsWord.cons (by decide) _)).append hvalue
    have heq : (GenericArg.binding i.text t).text.toList =
        i.text.toList ++ ' ' :: '=' :: ' ' :: t.text.toList := by
      simp [GenericArg.text]
    rw [heq]
    exact ⟨_, hall, rfl, hhead, _, us, hspells, rfl⟩
  lifetimeBound {i} h rest hrest := by
    have heq : ("'" ++ i.text).toList = '\'' :: i.text.toList := by simp
    rw [heq]
    exact ⟨_, Lexes.lifetime h hrest.endsWord, rfl⟩
  trait {_ maybe _ _ _ _ _ _} hpath hs ih h rest hrest := by
    obtain ⟨rfl, rfl, hreadable, hcanonical⟩ := h
    cases hpath
    obtain ⟨us, hus, hspells⟩ := ih.lexes_path hs hcanonical hreadable hrest
    rw [String.append_assoc]
    cases maybe with
    | false => exact ⟨us, by simpa using hus, rfl, rfl, false, us, hspells, rfl⟩
    | true =>
      have hall := lexes_punct_cons (c := '?') (by decide) (by decide) hus
      exact ⟨_, by simpa using hall, rfl, rfl, _, us, hspells, rfl⟩

/-- The text of a readable type whose bounds fit is read as the type. -/
theorem parseType_of_readable {w : SourceType} {t : ResolvedType} (hw : literal w = some t)
    (h : w.Canonical .readable) (hfits : w.Fits true) : parseType t.text = some w := by
  obtain ⟨ts, hts, hspells⟩ := lexes_resolvedCases.type hw h [] EndsType.nil
  exact parseType_of_spells (lex_of_lexes hts) hspells hfits

end Memberwise
