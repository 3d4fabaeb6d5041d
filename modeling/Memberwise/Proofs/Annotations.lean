import Memberwise.Proofs.Blocks
import Memberwise.Proofs.Commands
import Memberwise.Proofs.Selection
import Memberwise.Proofs.Spelling

/-!
# Memberwise.Proofs.Annotations — annotations as they are configured

The settings name annotations by their canonical paths. What is checked of such a path is how it is
spelled: colons with identifiers between them (`names_of_isAbsolutePath`). A struct that derives the
path as it is spelled is selected if the canonical form of the written path is in the settings, and
this is another text if an identifier is raw or the path goes through a facade
(`attribute?_namedPath`). So an accepted annotation can be one that no attribute stands for
(`annotation_selects_iff`).

The file of a struct with one `derive` is followed from its text through its tokens
(`lex_derivingText`) and its items (`parseFile_derivingText`) to the scan
(`mem_scan_derivingStruct`).
-/

namespace Memberwise

open Source Token

/-! ## Paths as they are written -/

/-- A path of names without arguments. -/
def namedPath (absolute : Bool) (ids : List Ident) : SourcePath :=
  .mk absolute (ids.map fun i => .mk i .none)

/-- The text of an identifier has no colons. -/
theorem Ident.Lexical.colon_notMem {i : Ident} (h : i.Lexical) : ':' ∉ i.text.toList := by
  have hname : ':' ∉ i.name.toList := h.1.colon_notMem
  cases hraw : i.raw with
  | false =>
    rw [toList_text_plain hraw]
    exact hname
  | true =>
    rw [toList_text_raw hraw]
    simpa using hname

/-- The text of an identifier is not empty. -/
theorem Ident.Lexical.text_ne_empty {i : Ident} (h : i.Lexical) : i.text ≠ "" := by
  rcases exists_text_eq_cons h with ⟨c, cs, htext, -⟩
  intro hempty
  rw [hempty] at htext
  cases htext

/-- An identifier starts no operator. -/
theorem startsPunct_text {i : Ident} (h : i.Lexical) (rest : List Char) :
    startsPunct (i.text.toList ++ rest) = false := by
  rcases exists_text_eq_cons h with ⟨c, cs, htext, hc⟩
  rcases identStart_facts hc with ⟨-, -, hpunct, hsingle⟩
  rw [htext]
  simp [startsPunct, hpunct, hsingle]

/-- Identifiers with colons between them start no operator. -/
theorem startsPunct_idents {ids : List Ident} (hne : ids ≠ []) (hids : ∀ i ∈ ids, i.Lexical)
    (rest : List Char) :
    startsPunct (("::".intercalate (ids.map Ident.text)).toList ++ rest) = false := by
  cases ids with
  | nil => exact absurd rfl hne
  | cons first more =>
    have hfirst : first.Lexical := hids first List.mem_cons_self
    cases more with
    | nil => simpa using startsPunct_text hfirst rest
    | cons next more =>
      rw [List.map_cons, List.map_cons, String.intercalate_cons_cons, String.append_assoc,
        String.toList_append, List.append_assoc]
      exact startsPunct_text hfirst _

/-- The tokens of names with colons between them. -/
def nameTokens : List Ident → List TokenTree
  | [] => []
  | [i] => [.ident i]
  | i :: next :: more => .ident i :: (colons false ++ nameTokens (next :: more))

/-- The text of names with colons between them is read as their tokens, whatever follows. -/
theorem lexes_nameTokens {ids : List Ident} (hne : ids ≠ []) (hids : ∀ i ∈ ids, i.Lexical)
    {rest : List Char} (hrest : EndsWord rest) :
    Lexes ("::".intercalate (ids.map Ident.text)).toList (nameTokens ids) rest := by
  induction ids with
  | nil => exact absurd rfl hne
  | cons i more ih =>
    have hi : i.Lexical := hids i List.mem_cons_self
    cases more with
    | nil => simpa [nameTokens] using Lexes.ident hi hrest
    | cons next more =>
      have hmore : ∀ j ∈ next :: more, j.Lexical := fun j hj => hids j (List.mem_cons_of_mem _ hj)
      -- A name follows the colons, so they are joint to nothing.
      have hjoint := startsPunct_idents (List.cons_ne_nil next more) hmore rest
      have hcolons := lexes_colons (ih (List.cons_ne_nil _ _) hmore)
      rw [hjoint] at hcolons
      have htext : ("::".intercalate ((i :: next :: more).map Ident.text)).toList =
          i.text.toList ++
            ':' :: ':' :: ("::".intercalate ((next :: more).map Ident.text)).toList := by
        rw [List.map_cons, List.map_cons, String.intercalate_cons_cons]
        simp
      rw [htext]
      exact (Lexes.ident hi (EndsWord.cons (by decide) _)).append hcolons

/-- The tokens of names that can stand in a path spell the path. -/
theorem spellsSegments_nameTokens {ids : List Ident} (hne : ids ≠ [])
    (hids : ∀ i ∈ ids, isSegment i = true) :
    SpellsSegments false (ids.map fun i => .mk i .none) (nameTokens ids) := by
  induction ids with
  | nil => exact absurd rfl hne
  | cons i more ih =>
    have hi : isSegment i = true := hids i List.mem_cons_self
    cases more with
    | nil => exact ⟨hi, rfl⟩
    | cons next more =>
      have hmore := ih (List.cons_ne_nil _ _) fun j hj => hids j (List.mem_cons_of_mem _ hj)
      exact ⟨rfl, hi, false, _, hmore, rfl⟩

/-- The text of a path of names is read as tokens that spell the path, whatever follows. -/
theorem lexes_namedPath {absolute : Bool} {ids : List Ident} (hne : ids ≠ [])
    (hids : ∀ i ∈ ids, i.Lexical ∧ isSegment i = true)
    (hhead : absolute = false → (ids.head?.any isHead) = true) :
    ∃ ts, SpellsPath false (namedPath absolute ids) ts ∧
      ∀ rest, EndsWord rest →
        Lexes (NamePath.mk absolute (ids.map Ident.text)).text.toList ts rest := by
  have hspells := spellsSegments_nameTokens hne fun i hi => (hids i hi).2
  have hts : ∀ rest, EndsWord rest →
      Lexes ("::".intercalate (ids.map Ident.text)).toList (nameTokens ids) rest :=
    fun _ => lexes_nameTokens hne fun i hi => (hids i hi).1
  cases absolute with
  | true =>
    have htext : (NamePath.mk true (ids.map Ident.text)).text.toList =
        ':' :: ':' :: ("::".intercalate (ids.map Ident.text)).toList := by
      simp [NamePath.text]
    refine ⟨colons false ++ nameTokens ids, ⟨false, _, hspells, rfl⟩, fun rest hrest => ?_⟩
    -- The two signs of the leading `::` are joined to what follows only if that starts with a sign.
    have hjoint := startsPunct_idents hne (fun i hi => (hids i hi).1) rest
    have hcolons := lexes_colons (hts rest hrest)
    rw [hjoint] at hcolons
    rw [htext]
    exact hcolons
  | false =>
    have htext : (NamePath.mk false (ids.map Ident.text)).text.toList =
        ("::".intercalate (ids.map Ident.text)).toList := by
      simp [NamePath.text]
    rw [htext]
    refine ⟨nameTokens ids, ⟨?_, hspells⟩, hts⟩
    rw [List.head?_map, Option.any_map]
    exact hhead rfl

/-- The tokens of a path of names are read as that path. -/
theorem reads_namedPath {absolute : Bool} {ids : List Ident} {ts : List TokenTree}
    (h : SpellsPath false (namedPath absolute ids) ts) (r : Rules) :
    Reads (sourcePath r false) ts [] (namedPath absolute ids) := by
  refine reads_sourcePath_of_last h (fun s ls hs hls _ => ?_) rfl
  rw [List.getLast?_map, Option.map_eq_some_iff] at hs
  rcases hs with ⟨i, -, rfl⟩
  rcases hls with ⟨hi, rfl⟩
  exact reads_pathSegment_none hi rfl

/-- The tokens of a path of names are read as a list of that path alone. -/
theorem pathList?_namedPath {absolute : Bool} {ids : List Ident} {ts : List TokenTree}
    (h : SpellsPath false (namedPath absolute ids) ts) :
    pathList? ts = some [namedPath absolute ids] := by
  have hne : ts ≠ [] := ne_nil_of_spellsPath h
  have hlist : SeparatedReads List.isEmpty "," (sourcePath (rulesFor ts) false) [] ts
      [namedPath absolute ids] := .last (by simpa using hne) (reads_namedPath h _) rfl
  exact ((hlist.terminated rfl).map Prod.fst).run?

/-! ## What the check of the settings accepts -/

/-- The text of an identifier is read as one exactly if it can name something. -/
theorem parseIdent_text {i : Ident} (h : i.Lexical) :
    (parseIdent i.text).isSome = i.isName := by
  have hlexes : Lexes i.text.toList [.ident i] [] := Lexes.ident h (by intro c hc; cases hc)
  have hlex : lex i.text = some [.ident i] := lex_of_lexes hlexes
  rw [parseIdent, readText, hlex]
  show (Reader.run? name [.ident i]).isSome = i.isName
  -- The text is one token, so it is read as a name exactly if that token is one.
  cases hname : i.isName with
  | true => rw [(Reads.name hname []).run?]; rfl
  | false =>
    have hnone : name ⟨[.ident i], []⟩ = none := by
      show (if atName [.ident i] then ident else failure : Reader Ident) ⟨[.ident i], []⟩ = none
      rw [atName, hname]
      rfl
    rw [Reader.run?, hnone]
    rfl

/-- Only the plain word is spelled `crate`. -/
theorem eq_crate_of_text {i : Ident} (h : i.text = "crate") : i = .plain "crate" := by
  rcases i with ⟨name, raw⟩
  cases raw with
  | false => exact congrArg Ident.plain h
  | true =>
    have hhead := congrArg (fun s : String => s.toList.head?) h
    rw [toList_text_raw rfl, List.head?_cons] at hhead
    exact absurd hhead (by decide)

/-- Identifiers with colons between them are split into their texts. -/
theorem splitColons_idents {ids : List Ident} (hne : ids ≠ []) (hids : ∀ i ∈ ids, i.Lexical) :
    Text.splitColons ("::".intercalate (ids.map Ident.text)).toList =
      ids.map fun i => i.text.toList := by
  cases ids with
  | nil => exact absurd rfl hne
  | cons first rest =>
    have hsplit : Text.splitColons ("::".intercalate ((first :: rest).map Ident.text)).toList =
        ((first :: rest).map Ident.text).map String.toList := by
      refine splitColons_intercalate fun text htext => ?_
      rw [← List.map_cons] at htext
      rcases List.mem_map.mp htext with ⟨i, hi, rfl⟩
      exact (hids i hi).colon_notMem
    rw [hsplit, List.map_map]
    rfl

/-- A path that settings accept is made of names and of the word `crate`. -/
theorem names_of_hasIdentSegments {ids : List Ident} (hids : ∀ i ∈ ids, i.Lexical)
    (h : hasIdentSegments ("::".intercalate (ids.map Ident.text)) = true) :
    ids ≠ [] ∧ ∀ i ∈ ids, i.isName = true ∨ i = .plain "crate" := by
  rw [hasIdentSegments, Bool.and_eq_true] at h
  rcases h with ⟨hempty, hall⟩
  have hne : ids ≠ [] := by
    rintro rfl
    cases hempty
  refine ⟨hne, fun i hi => ?_⟩
  -- Cutting the text gives the identifiers back, hence what was tested are their texts.
  rw [splitColons_idents hne hids, List.all_eq_true] at hall
  have hsegment := hall i.text.toList (List.mem_map_of_mem hi)
  rw [String.ofList_toList, parseIdent_text (hids i hi), Bool.or_eq_true, beq_iff_eq] at hsegment
  rcases hsegment with hname | hcrate
  · exact Or.inl hname
  · exact Or.inr (eq_crate_of_text (String.toList_injective hcrate))

/-- What stands before the first colons of a path is its first name. -/
theorem head?_of_splitColons {ids : List Ident} (hne : ids ≠ []) (hids : ∀ i ∈ ids, i.Lexical)
    {text : String} {cs : List Char} {pieces : List (List Char)}
    (htext : "::".intercalate (ids.map Ident.text) = text)
    (h : Text.splitColons text.toList = cs :: pieces) :
    ∃ i, ids.head? = some i ∧ i.Lexical ∧ i.text.toList = cs := by
  cases ids with
  | nil => exact absurd rfl hne
  | cons first rest =>
    rw [← htext, splitColons_idents hne hids] at h
    exact ⟨first, rfl, hids first List.mem_cons_self, (List.cons.inj h).1⟩

/-- Only the path of this one word is spelled `crate`. -/
theorem text_eq_crate_iff {absolute : Bool} {ids : List Ident} (hne : ids ≠ [])
    (hids : ∀ i ∈ ids, i.Lexical) :
    (NamePath.mk absolute (ids.map Ident.text)).text = "crate" ↔
      absolute = false ∧ ids = [.plain "crate"] := by
  constructor
  · intro h
    cases absolute with
    | true =>
      -- A text that starts with a colon is not `crate`; only the heads need comparing.
      have hhead := congrArg (fun s : String => s.toList.head?) h
      rw [NamePath.text, if_pos rfl, String.toList_append] at hhead
      exact absurd hhead (by simp)
    | false =>
      have htext : "::".intercalate (ids.map Ident.text) = "crate" := by
        simpa [NamePath.text] using h
      -- Cut at the colons, `crate` is one piece, so there is one identifier.
      have hsplit := splitColons_idents hne hids
      rw [htext, NamePath.splitColons_of_notMem (by decide)] at hsplit
      have hlength : ids.length = 1 := by simpa using (congrArg List.length hsplit).symm
      rcases List.length_eq_one_iff.mp hlength with ⟨i, rfl⟩
      have hi : i.text.toList = "crate".toList := (List.cons.inj hsplit).1.symm
      exact ⟨rfl, by rw [eq_crate_of_text (String.toList_injective hi)]⟩
  · rintro ⟨rfl, rfl⟩
    decide

/-- The check accepts a path of names only if these can name something or are the word `crate`, with
which a path that is not absolute starts. -/
theorem names_of_isAbsolutePath {absolute : Bool} {ids : List Ident} (hids : ∀ i ∈ ids, i.Lexical)
    (h : isAbsolutePath (NamePath.mk absolute (ids.map Ident.text)).text = true) :
    ids ≠ [] ∧ (∀ i ∈ ids, i.isName = true ∨ i = .plain "crate") ∧
      (absolute = false → ids.head? = some (.plain "crate")) := by
  cases absolute with
  | true =>
    have hdrop : Text.dropStart? "::" (NamePath.mk true (ids.map Ident.text)).text =
        some ("::".intercalate (ids.map Ident.text)) := dropStart?_append _ _
    rw [isAbsolutePath, hdrop] at h
    rcases names_of_hasIdentSegments hids h with ⟨hne, hnames⟩
    exact ⟨hne, hnames, fun hfalse => by cases hfalse⟩
  | false =>
    have htext : (NamePath.mk false (ids.map Ident.text)).text =
        "::".intercalate (ids.map Ident.text) := by
      simp [NamePath.text]
    rw [htext, isAbsolutePath] at h
    split at h
    · next rest hdrop =>
      -- A name is not empty, so the text does not start with the colons.
      have hsplit : Text.splitColons ("::" ++ rest).toList =
          [] :: Text.splitColons rest.toList := by
        rw [String.toList_append]
        exact NamePath.splitColons_append List.not_mem_nil _
      have hstart := eq_append_of_dropStart? hdrop
      have hne : ids ≠ [] := by
        rintro rfl
        have hlength := congrArg (fun s : String => s.toList.length) hstart
        simp at hlength
      rcases head?_of_splitColons hne hids hstart hsplit with ⟨i, -, hi, hnil⟩
      exact absurd (String.toList_injective hnil) hi.text_ne_empty
    · rw [Bool.and_eq_true, Bool.or_eq_true, beq_iff_eq] at h
      rcases h with ⟨hcrate, hsegments⟩
      rcases names_of_hasIdentSegments hids hsegments with ⟨hne, hnames⟩
      refine ⟨hne, hnames, fun _ => ?_⟩
      have hhead : ∃ i, ids.head? = some i ∧ i.Lexical ∧ i.text.toList = "crate".toList := by
        rcases hcrate with hcrate | hdrop
        · exact head?_of_splitColons hne hids hcrate (NamePath.splitColons_of_notMem (by decide))
        · rcases Option.isSome_iff_exists.mp hdrop with ⟨rest, hdrop⟩
          have hsplit : Text.splitColons ("crate::" ++ rest).toList =
              "crate".toList :: Text.splitColons rest.toList := by
            have hcolon : ':' ∉ "crate".toList := by decide
            rw [String.toList_append]
            exact NamePath.splitColons_append hcolon rest.toList
          exact head?_of_splitColons hne hids (eq_append_of_dropStart? hdrop) hsplit
      rcases hhead with ⟨i, hi, -, htext⟩
      rw [hi, eq_crate_of_text (String.toList_injective htext)]

/-! ## The file -/

/-- The text of a file with a struct that derives `a`. -/
def derivingText (a : String) (name : Ident) : String :=
  "#[derive(" ++ a ++ ")] struct " ++ name.text ++ " \x7b x: u8 \x7d"

/-- The tokens of such a file. -/
def derivingTokens (tokens : List TokenTree) (name : Ident) : List TokenTree :=
  [.punct '#' false,
   .group .bracket [.ident (.plain "derive"), .group .parenthesis tokens],
   .ident (.plain "struct"), .ident name,
   .group .brace [.ident (.plain "x"), .punct ':' false, .ident (.plain "u8")]]

/-- The characters of a struct with a derive annotation. -/
theorem toList_derivingText (a : String) (name : Ident) :
    (derivingText a name).toList =
      '#' :: (('[' :: ("derive".toList ++ ('(' :: a.toList ++ [')'])) ++ [']']) ++
        ' ' :: ("struct".toList ++ ' ' :: (name.text.toList ++
          ' ' :: ('\x7b' :: " x: u8 ".toList ++ ['\x7d'])))) := by
  simp [derivingText]

/-- Braces around a text. -/
theorem lexes_braces {cs rest : List Char} {ts : List TokenTree}
    (h : Lexes cs ts ('\x7d' :: rest)) :
    Lexes ('\x7b' :: cs ++ ['\x7d']) [.group .brace ts] rest :=
  Lexes.group ⟨by decide, by decide⟩ ⟨by decide, by decide⟩ rfl rfl rfl h

/-- A field of this struct is read as its tokens. -/
theorem lexes_field (rest : List Char) :
    Lexes " x: u8 ".toList [.ident (.plain "x"), .punct ':' false, .ident (.plain "u8")]
      ('\x7d' :: rest) := by
  have htype : Lexes (' ' :: ("u8".toList ++ [' '])) [.ident (.plain "u8")] ('\x7d' :: rest) :=
    (lexes_word (by decide) (Lexes.nil _).space (EndsWord.cons (by decide) _)).space
  have hcolon : Lexes (':' :: ' ' :: ("u8".toList ++ [' ']))
      [.punct ':' false, .ident (.plain "u8")] ('\x7d' :: rest) :=
    lexes_punct_cons (by decide) (by decide) htype
  have hname : IsWord "x".toList := by decide
  exact (lexes_word hname hcolon (EndsWord.cons (by decide) _)).space

/-- The struct is read as its tokens if the annotation is. -/
theorem lex_derivingText {a : String} {tokens : List TokenTree} {name : Ident}
    (hname : name.Lexical) (ha : ∀ rest, Lexes a.toList tokens (')' :: rest)) :
    lex (derivingText a name) = some (derivingTokens tokens name) := by
  apply lex_of_lexes
  rw [toList_derivingText]
  have hattribute : ∀ rest, Lexes ("derive".toList ++ ('(' :: a.toList ++ [')']))
      [.ident (.plain "derive"), .group .parenthesis tokens] (']' :: rest) := fun rest =>
    lexes_word (by decide) (lexes_parentheses (ha _)) (EndsWord.cons (by decide) _)
  have hword : IsWord "struct".toList := by decide
  have hfields := (lexes_braces (lexes_field [])).space
  have hnamed := ((Lexes.ident hname (EndsWord.cons (by decide) _)).append hfields).space
  have hstruct := (lexes_word hword hnamed (EndsWord.cons (by decide) _)).space
  exact lexes_punct_cons (by decide) (by decide) ((lexes_brackets (hattribute _)).append hstruct)

section

variable {r : Rules}

/-- Where no `#` comes, there are no attributes. -/
theorem reads_attributes_none {rest : List TokenTree} (h : atOp "#" rest = false) :
    Reads (attributes r) [] rest [] :=
  ManyReads.many (.nil (by simp [h]))

/-- The attribute `derive` with its list. -/
theorem reads_attributes_derive {tokens rest : List TokenTree} {joint : Bool}
    (hrest : atOp "#" rest = false) :
    Reads (attributes r)
      [.punct '#' joint, .group .bracket [.ident (.plain "derive"), .group .parenthesis tokens]]
      rest [.list (.mk false [.mk (.plain "derive") .none]) tokens] := by
  -- The attribute is read from the inside out: its path, its meta item, its brackets.
  have hpath : Reads plainPath [.ident (.plain "derive")] [.group .parenthesis tokens]
      (.mk false [.mk (.plain "derive") .none]) := by
    refine (Reads.op?_false rfl).before (Reads.ahead_bind ?_)
    refine Reads.after ?_ (Reads.pure _ _)
    refine Reads.peek_true rfl ((Reads.ident _ _).after ?_)
    exact (Reads.op?_false rfl).before (Reads.pure _ _)
  have hmeta : Reads (metaItem r) [.ident (.plain "derive"), .group .parenthesis tokens] []
      (.list (.mk false [.mk (.plain "derive") .none]) tokens) := by
    have hafter : Reads (metaAfter r (.mk false [.mk (.plain "derive") .none]))
        [.group .parenthesis tokens] [] (.list (.mk false [.mk (.plain "derive") .none]) tokens) :=
      Reads.ahead_bind fun taken => ⟨_, rfl⟩
    exact Reads.peek_false rfl (hpath.bind hafter)
  have hone : Reads (do op "#"; group .bracket (metaItem r))
      [.punct '#' joint, .group .bracket [.ident (.plain "derive"), .group .parenthesis tokens]]
      rest (.list (.mk false [.mk (.plain "derive") .none]) tokens) := by
    have hmark : Reads (op "#") [.punct '#' joint]
      ([.group .bracket [.ident (.plain "derive"), .group .parenthesis tokens]] ++ rest) () :=
      Reads.op rfl rfl
    exact hmark.bind (hmeta.group rest)
  have hmany : ManyReads (fun ts => !atOp "#" ts) (do op "#"; group .bracket (metaItem r)) rest
      ([.punct '#' joint, .group .bracket [.ident (.plain "derive"),
        .group .parenthesis tokens]] ++ [])
      [.list (.mk false [.mk (.plain "derive") .none]) tokens] :=
    .cons rfl (List.cons_ne_nil _ _) hone (.nil (by simp [hrest]))
  exact hmany.many

/-- Where no `pub` comes, there is no visibility. -/
theorem reads_visibility_none {rest : List TokenTree} (h : atWord "pub" rest = false) :
    Reads visibility [] rest false :=
  (Reads.word?_false h).before (Reads.pure _ _)

/-- The field `x: u8`. -/
theorem reads_field {depth : Nat} (hdepth : 8 ≤ depth) (fields : Reader Unit) :
    Reads (namedFieldAfter (rules depth) fields [])
      [.ident (.plain "x"), .punct ':' false, .ident (.plain "u8")] []
      ⟨[], some (.plain "x"), .path (.mk false [.mk (.plain "u8") .none])⟩ := by
  -- A field is its name, a colon and its type, after a visibility that is not written.
  have htype : Reads ((rules depth).type true) [.ident (.plain "u8")] []
      (.path (.mk false [.mk (.plain "u8") .none])) :=
    reads_type _ ⟨rfl, rfl, rfl⟩ (by trivial) (Follows.nil true) hdepth
  have hcolon : Reads (op ":") [.punct ':' false] ([.ident (.plain "u8")] ++ []) () :=
    Reads.op rfl rfl
  have hname : Reads name [.ident (.plain "x")]
      ([.punct ':' false] ++ [.ident (.plain "u8")] ++ []) (.plain "x") := Reads.name rfl _
  refine (reads_visibility_none rfl).discard.before (Reads.peek_false rfl ?_)
  refine hname.bind (hcolon.bind (Reads.peek_bind ?_))
  exact htype.after (Reads.pure _ _)

/-- The struct after its attributes. -/
theorem reads_structAfter {depth : Nat} (hdepth : 8 ≤ depth) {name : Ident}
    (hname : name.isName = true) (tokens : List TokenTree) :
    Reads (structAfter (rules depth) (derivingStruct name tokens).attributes)
      ((derivingTokens tokens name).drop 2) [] (derivingStruct name tokens) := by
  -- One field, no generics and no `where`: each part of the grammar is stepped through in turn.
  have hfield := reads_field hdepth
  have hlist : ∀ fields, Reads (commaList do
        let attrs ← attributes (rules depth)
        namedFieldAfter (rules depth) fields attrs)
      [.ident (.plain "x"), .punct ':' false, .ident (.plain "u8")] []
      ([⟨[], some (.plain "x"), .path (.mk false [.mk (.plain "u8") .none])⟩], false) := by
    intro fields
    refine SeparatedReads.terminated (.last rfl ?_ rfl) rfl
    exact (reads_attributes_none rfl).before (hfield fields)
  have hfields : Reads (namedFields (rules depth))
      [.group .brace [.ident (.plain "x"), .punct ':' false, .ident (.plain "u8")]] []
      [⟨[], some (.plain "x"), .path (.mk false [.mk (.plain "u8") .none])⟩] :=
    Reads.ahead_bind (((hlist _).group []).after (Reads.pure _ _))
  have hgenerics : Reads (generics (rules depth)) []
      [.group .brace [.ident (.plain "x"), .punct ':' false, .ident (.plain "u8")]] [] :=
    (Reads.op?_false rfl).before (Reads.pure _ _)
  have hwhere : Reads (whereClause (rules depth)) []
      [.group .brace [.ident (.plain "x"), .punct ':' false, .ident (.plain "u8")]] false :=
    (Reads.word?_false rfl).before (Reads.pure _ _)
  refine (Reads.word "struct" _).bind ((Reads.name hname _).bind ?_)
  refine hgenerics.before (hwhere.before (Reads.ahead_bind ?_))
  exact hfields.after (Reads.pure _ _)

/-- The items of the file. -/
theorem reads_itemsRule {depth : Nat} (hdepth : 8 ≤ depth) {name : Ident}
    (hname : name.isName = true) (tokens : List TokenTree) :
    Reads (itemsRule (rules depth)) (derivingTokens tokens name) []
      [.struct (derivingStruct name tokens)] := by
  -- One struct is the whole file: its attribute, its item, and nothing behind.
  have hitem : Reads (itemAfter (rules depth) (derivingStruct name tokens).attributes)
      ((derivingTokens tokens name).drop 2) [] (.struct (derivingStruct name tokens)) := by
    refine (reads_visibility_none rfl).before (Reads.ahead_bind ?_)
    exact (reads_structAfter hdepth hname tokens).after (Reads.pure _ _)
  have hone : Reads (do
      let attrs ← attributes (rules depth)
      itemAfter (rules depth) attrs) (derivingTokens tokens name) []
      (.struct (derivingStruct name tokens)) := (reads_attributes_derive rfl).bind hitem
  have hmany : ManyReads List.isEmpty (do
      let attrs ← attributes (rules depth)
      itemAfter (rules depth) attrs) [] (derivingTokens tokens name ++ [])
      [.struct (derivingStruct name tokens)] := .cons rfl (List.cons_ne_nil _ _) hone (.nil rfl)
  exact hmany.many

end

/-- The file is read as the struct. -/
theorem parseFile_derivingText {a : String} {tokens : List TokenTree} {name : Ident}
    (hlexical : name.Lexical) (hname : name.isName = true)
    (ha : ∀ rest, Lexes a.toList tokens (')' :: rest)) :
    parseFile (derivingText a name) = some [.struct (derivingStruct name tokens)] := by
  have hstart : dropInterpreter (dropMark (derivingText a name).toList) =
      (derivingText a name).toList := by
    rw [toList_derivingText]
    rfl
  -- Fuel grows with the number of tokens; eight levels are all this struct needs.
  obtain ⟨depth, hrules, hdepth⟩ : ∃ depth,
      rulesFor (derivingTokens tokens name) = rules (depth + 1) ∧ 8 ≤ depth := by
    have hpos : 0 < TokenTree.sizeAll (derivingTokens tokens name) :=
      sizeAll_pos (List.cons_ne_nil _ _)
    exact ⟨8 * (TokenTree.sizeAll (derivingTokens tokens name) + 1) - 1, rfl, by omega⟩
  have hinner : Reads (innerAttributes (rules (depth + 1))) [] (derivingTokens tokens name) () :=
    (ManyReads.many (.nil rfl)).discard
  have hfile : Reads (do innerAttributes (rules (depth + 1)); (rules (depth + 1)).items)
      (derivingTokens tokens name) [] [.struct (derivingStruct name tokens)] :=
    hinner.before (reads_itemsRule hdepth hname tokens)
  rw [parseFile, hstart, String.ofList_toList, readText, lex_derivingText hlexical ha]
  show Reader.run? _ (derivingTokens tokens name) = _
  rw [hrules]
  exact hfile.run?

/-! ## What the annotation stands for in the file -/

section

variable {root : Scope} {s : StructItem}

/-- A file with one struct has one module. -/
theorem module?_struct (root : Scope) (s : StructItem) :
    (SymbolTable.ofItems root [.struct s]).module? root = some (.ofItems [.struct s]) := by
  rw [SymbolTable.ofItems, SymbolTable.module?_append, SymbolTable.module?_ofNestedAll_self,
    SymbolTable.module?_ofModule_self]
  rfl

/-- Of a file with one struct, only the name of the struct is known. -/
theorem lookup_struct (root : Scope) (s : StructItem) (name : String) :
    (SymbolTable.ofItems root [.struct s]).lookup maxSteps root name =
      if name = s.name.name then some (root.join name) else none := by
  have hm := module?_struct root s
  have hdeclares : (ModuleSymbols.ofItems [.struct s]).declares name =
      decide (name = s.name.name) := by
    simp [ModuleSymbols.declares, ModuleSymbols.ofItems, declaredType?, moduleName?]
  by_cases h : name = s.name.name
  · rw [if_pos h]
    exact SymbolTable.lookup_declared hm (by rw [hdeclares, decide_eq_true h]) 32
  · rw [if_neg h]
    exact SymbolTable.lookup_unbound hm (by rw [hdeclares, decide_eq_false h]) rfl (Or.inl rfl)

/-- In a file with one struct the word `derive` stands for derivation, unless the struct has this
name. -/
theorem attribute?_derive (root : Scope) (s : StructItem) :
    (SymbolTable.ofItems root [.struct s]).attribute? (.mk false [.mk (.plain "derive") .none])
        root =
      if s.name.name = "derive" then some (root.join "derive") else some derivePath := by
  -- A struct named `derive` shadows the prelude's attribute of that name.
  have hlookup := lookup_struct root s "derive"
  by_cases h : s.name.name = "derive"
  · rw [if_pos h.symm] at hlookup
    have hcanonical : (SymbolTable.ofItems root [.struct s]).canonical maxSteps root false
        ⟨false, ["derive"]⟩ = some (root.join "derive") := by
      show canonicalWith (SymbolTable.lookup _ maxSteps root) root false ⟨false, ["derive"]⟩ = _
      rw [canonicalWith_found (by decide) hlookup, extend_nil, definingPath_join]
    rw [if_pos h]
    show (if (SymbolTable.lookup _ maxSteps root "derive").isSome then _ else _) = _
    rw [hlookup]
    exact hcanonical
  · rw [if_neg (Ne.symm h)] at hlookup
    rw [if_neg h]
    show (if (SymbolTable.lookup _ maxSteps root "derive").isSome then _ else _) = _
    rw [hlookup]
    rfl

/-- A name is not `crate`. -/
theorem name_ne_crate {i : Ident} (hlexical : i.Lexical) (hname : i.isName = true) :
    i.name ≠ "crate" := by
  intro hcrate
  cases hraw : i.raw with
  | true => exact hlexical.2 hraw (hcrate ▸ by decide)
  | false =>
    rw [Ident.isName, hraw, hcrate] at hname
    exact absurd hname (by decide)

/-- A configured path stands for its names behind the facades, except for `crate` alone. -/
theorem attribute?_namedPath {absolute : Bool} {ids : List Ident} (hne : ids ≠ [])
    (hhead : absolute = false → ids.head? = some (.plain "crate")) (hs : s.name.name ≠ "crate") :
    (SymbolTable.ofItems root [.struct s]).attribute? (namedPath absolute ids) root =
      if absolute = false ∧ ids = [.plain "crate"] then none
      else some (definingPath (NamePath.mk absolute (ids.map Ident.name)).text) := by
  have hnames : (namedPath absolute ids).names = ids.map Ident.name := by
    simp [namedPath, SourcePath.names, SourcePath.segments, PathSegment.name]
  have hcanonical : (SymbolTable.ofItems root [.struct s]).canonical maxSteps root false
      (namedPath absolute ids).namePath =
        some (definingPath (NamePath.mk absolute (ids.map Ident.name)).text) := by
    rw [SourcePath.namePath, hnames]
    cases ids with
    | nil => exact absurd rfl hne
    | cons first rest =>
      cases absolute with
      | true => rfl
      | false =>
        cases hhead rfl
        have htext : extend "crate" (rest.map Ident.name) =
            "" ++ "::".intercalate ("crate" :: rest.map Ident.name) := by
          rw [← Scope.path_eq_extend ⟨rest.map Ident.name⟩, String.empty_append]
          rfl
        exact congrArg (fun path => some (definingPath path)) htext
  by_cases hcrate : absolute = false ∧ ids = [.plain "crate"]
  · rcases hcrate with ⟨rfl, rfl⟩
    rw [if_pos ⟨rfl, rfl⟩]
    have hlookup := lookup_struct root s "crate"
    rw [if_neg (Ne.symm hs)] at hlookup
    show (if (SymbolTable.lookup _ maxSteps root "crate").isSome then _ else _) = _
    rw [hlookup]
    rfl
  · rw [if_neg hcrate, ← hcanonical, SymbolTable.attribute?, hnames]
    split
    · next name habsolute hname =>
      -- A single name without leading colons is the word that is set apart.
      refine absurd ⟨habsolute, ?_⟩ hcrate
      have hlength : ids.length = 1 := by simpa using congrArg List.length hname
      rcases List.length_eq_one_iff.mp hlength with ⟨i, rfl⟩
      exact congrArg (fun i => [i]) (Option.some.inj (hhead habsolute))
    · rfl

end

/-- Settings that pass the check have only absolute paths as annotations. -/
theorem Config.isAbsolutePath_of_validate {c : Config} (h : c.validate = .ok ()) {a : String}
    (ha : a ∈ c.qualifyingAnnotations) : isAbsolutePath a = true :=
  (Config.validate_eq_ok_iff.mp h).2.2.2.2 a ha

/-- The one struct of a file is selected exactly if its `derive` is known as such and the path in
the list is a qualifying annotation, or its `derive` stands for something else that is one. -/
theorem mem_scan_derivingStruct {m : Semantics} {c : Config} {root : Scope} {name : Ident}
    {tokens : List TokenTree} {p : SourcePath} (hlist : pathList? tokens = some [p]) {path : String}
    (hderive : m.attribute? (.mk false [.mk (.plain "derive") .none]) root = some path)
    (hconditional : path ≠ conditionalPath) :
    (⟨derivingStruct name tokens, root⟩ : Candidate) ∈
        (scan m c root [.struct (derivingStruct name tokens)]).value ↔
      if path = derivePath then ∃ q, m.attribute? p root = some q ∧ c.qualifies q = true
      else c.qualifies path = true := by
  have hpaths : derivedPaths (.list (.mk false [.mk (.plain "derive") .none]) tokens) = [p] := by
    rw [derivedPaths, hlist]
    rfl
  -- The struct has one attribute, so being selected is a question about its one leaf.
  have hselected : (⟨derivingStruct name tokens, root⟩ : Candidate).Selected m c ↔
      LeafQualifies m c root (.list (.mk false [.mk (.plain "derive") .none]) tokens) := by
    constructor
    · rintro ⟨-, attr, hattr, -, hleaf⟩
      cases List.mem_singleton.mp hattr
      exact hleaf
    · intro hleaf
      exact ⟨rfl, _, List.mem_singleton.mpr rfl, rfl, hleaf⟩
  rw [value_scan_structsFrom m c root 0, List.mem_filter, isSelected_iff, hselected]
  have hname : m.attribute?
      (Meta.list (.mk false [.mk (.plain "derive") .none]) tokens).name root = some path := hderive
  have hone : (⟨derivingStruct name tokens, root⟩ : Candidate) ∈
      (structsFrom root 0 [.struct (derivingStruct name tokens)]).map Prod.snd := by
    simp [structsFrom, structsOf]
  simp only [LeafQualifies, leaf_iff hname, hpaths, if_neg hconditional, hone, true_and]
  by_cases hpath : path = derivePath
  · simp only [if_pos hpath, List.mem_singleton, exists_and_left, exists_eq_left]
  · simp only [if_neg hpath, exists_and_left, exists_eq_left, hname, Option.some.injEq,
      exists_eq_left']

/-- Where an accepted annotation is spelled with identifiers and colons alone, the file of a struct
that derives it as it is spelled is read, and the struct is selected exactly if the canonical form
of the path, without `r#` and behind the facades, is itself in the settings; not so for the word
`crate` alone, and a struct of the name `derive` hides the attribute. -/
theorem annotation_selects_iff (c : Config) (hc : c.validate = .ok ()) (a : String)
    (ha : a ∈ c.qualifyingAnnotations) (absolute : Bool) (ids : List Ident)
    (hids : ∀ i ∈ ids, i.Lexical) (hspelled : a = (NamePath.mk absolute (ids.map Ident.text)).text)
    (root : Scope) (name : Ident) (hlexical : name.Lexical) (hname : name.isName = true) :
    ∃ s : StructItem, s.name = name ∧ parseFile (derivingText a name) = some [.struct s] ∧
      (⟨s, root⟩ ∈ (scan (.ofTable (.ofItems root [.struct s]) c.nullableAnnotations) c root
          [.struct s]).value ↔
        if name.name = "derive" then c.qualifies (root.join "derive") = true
        else a ≠ "crate" ∧
          c.qualifies (definingPath (NamePath.mk absolute (ids.map Ident.name)).text) = true) := by
  subst hspelled
  obtain ⟨hne, hnames, hhead⟩ :=
    names_of_isAbsolutePath hids (Config.isAbsolutePath_of_validate hc ha)
  have hsegments : ∀ i ∈ ids, i.Lexical ∧ isSegment i = true := by
    intro i hi
    refine ⟨hids i hi, ?_⟩
    rcases hnames i hi with hname | rfl
    · rw [isSegment, hname]
      rfl
    · rfl
  have hstart : absolute = false → (ids.head?.any isHead) = true := by
    intro habsolute
    rw [hhead habsolute]
    rfl
  obtain ⟨tokens, hspells, hlexes⟩ := lexes_namedPath hne hsegments hstart
  have hlist : pathList? tokens = some [namedPath absolute ids] := pathList?_namedPath hspells
  refine ⟨derivingStruct name tokens, rfl, ?_, ?_⟩
  · refine parseFile_derivingText hlexical hname fun rest => ?_
    exact hlexes _ (EndsWord.cons (by decide) rest)
  · have hpath : (Semantics.ofTable (.ofItems root [.struct (derivingStruct name tokens)])
        c.nullableAnnotations).attribute? (namedPath absolute ids) root = _ :=
      attribute?_namedPath hne hhead (name_ne_crate hlexical hname)
    have hderive : (Semantics.ofTable (.ofItems root [.struct (derivingStruct name tokens)])
        c.nullableAnnotations).attribute? (.mk false [.mk (.plain "derive") .none]) root =
          if name.name = "derive" then some (root.join "derive") else some derivePath :=
      attribute?_derive root (derivingStruct name tokens)
    by_cases hshadowed : name.name = "derive"
    · -- The name of the struct stands before the attribute that needs no import.
      rw [if_pos hshadowed] at hderive ⊢
      have hother : ∀ path : String, path.toList.head? = some ':' → root.join "derive" ≠ path := by
        rintro path hcolon rfl
        rw [root.head?_join] at hcolon
        cases hcolon
      rw [mem_scan_derivingStruct hlist hderive (hother conditionalPath (by decide)),
        if_neg (hother derivePath (by decide))]
    · rw [if_neg hshadowed] at hderive ⊢
      rw [mem_scan_derivingStruct hlist hderive (by decide), if_pos rfl, hpath, ne_eq,
        text_eq_crate_iff hne hids]
      by_cases hcrate : absolute = false ∧ ids = [.plain "crate"]
      · simp [hcrate]
      · simp [hcrate]

theorem annotation_selects_propertyMap :
    ∃ s : StructItem, s.name = .plain "Person" ∧
      parseFile "#[derive(::propgroup::PropertyMap)] struct Person \x7b x: u8 \x7d" =
        some [.struct s] ∧
      ⟨s, ⟨["models"]⟩⟩ ∈ (scan (.ofTable (.ofItems ⟨["models"]⟩ [.struct s]) true) .default
        ⟨["models"]⟩ [.struct s]).value := by
  have hids : ∀ i ∈ [Ident.plain "propgroup", .plain "PropertyMap"], i.Lexical := by decide
  obtain ⟨s, hs, hparse, hselected⟩ := annotation_selects_iff .default (by rfl)
    "::propgroup::PropertyMap" (by decide) true [.plain "propgroup", .plain "PropertyMap"] hids
    (by decide) ⟨["models"]⟩ (.plain "Person") (by decide) (by decide)
  refine ⟨s, hs, hparse, hselected.mpr ?_⟩
  rw [if_neg (by decide)]
  exact ⟨by decide, by decide +kernel⟩

/-- Settings with an annotation that is reached through a facade. -/
def facadeConfig : Config :=
  { Config.default with qualifyingAnnotations := ["::propgroup::prelude::PropertyMap"] }

/-- The settings accept the path of a facade, but no attribute stands for one. -/
theorem annotation_ignored_prelude :
    facadeConfig.validate = .ok () ∧
      (parseFile (derivingText "::propgroup::prelude::PropertyMap" (.plain "S"))).map (fun items =>
        (scan (.ofTable (.ofItems .root items) true) facadeConfig .root items).value.length) =
          some 0 := by
  constructor
  · rfl
  · decide +kernel

end Memberwise
