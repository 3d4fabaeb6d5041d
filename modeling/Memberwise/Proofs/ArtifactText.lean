import Memberwise.Proofs.Deriving
import Memberwise.Proofs.FullNames
import Memberwise.Proofs.Lines
import Memberwise.Proofs.VariantNames

/-!
# Memberwise.Proofs.ArtifactText — the branches in the text of an artifact

A reader of an artifact's text sees its lines, and knows a branch by what the line that opens it
starts with. The names, types and paths of a descriptor stand in these lines as they are, so the
text reads back as it was written only if nothing among them looks like a branch or like the end of
the table of types, or breaks a line.

That it does not is decided by the starts of the lines. The path of the runtime library is absolute,
so the line of a branch starts in one of two ways (`branchOpenings`), which the fixed starts of the
other lines clash with (`Harmless`). Two kinds of line have no such start: a variant, and the line
that looks a type up, where the name of the table follows the indentation. There the name decides,
which has no spaces. With the lines of all parts known to open no branch (`Passed`), the lines that
do are the heads of the branches, in their order (`openedBranches_artifactLines`).
-/

namespace Memberwise

open Naming Source Text
open Token (IsWord)

/-! ## Lines that open a branch -/

section

variable (c : Config)

/-- What the line that opens a branch starts with. -/
def branchStart : String := "        if " ++ c.runtimeCrate ++ "::names_match("

/-- Whether a line opens a branch. -/
def opensBranch (line : String) : Bool := (branchStart c).toList.isPrefixOf line.toList

/-- The line that opens the branch of a member. -/
def branchHead (m : Member) : String :=
  "        if " ++ c.runtimeCrate ++ "::names_match(property_name, " ++ quote m.name ++ ") \x7b"

/-- The line that leaves out the records in which a field is absent. -/
def filterLine (field : String) : String :=
  "            let source = source.into_iter().filter(|item| !" ++ c.runtimeCrate ++
    "::MaybeAbsent::is_absent(&item." ++ field ++ "));"

/-- The line that groups the records by a field. -/
def groupLine (d : Descriptor) (m : Member) : String :=
  "            let groups = " ++ c.runtimeCrate ++ "::group_by::<" ++ d.fullName ++ ", " ++ m.type ++
    ", _, _>(source, |item: &" ++ d.fullName ++ "| item." ++ m.fieldIdent ++ ".clone());"

/-- The line after the one that opens the branch of a member. -/
def lineAfterHead (d : Descriptor) (m : Member) : String :=
  if m.nullability = .nonNullable then groupLine c d m else filterLine c m.fieldIdent

/-- The line before the rows of the table of types. -/
def tableOpening : String :=
  "        " ++ c.runtimeCrate ++ "::PropertyTable::new(::std::vec!["

/-- The line after the rows of the table of types. -/
def tableClosing : String := "        ])"

/-- The rows of the table of types, among the lines of an artifact. -/
def tableSection (lines : List String) : List String :=
  ((lines.dropWhile (· != tableOpening c)).drop 1).takeWhile (· != tableClosing)

/-- The lines that open a branch, each with the line after it. -/
def openedBranches (lines : List String) : List (String × String) :=
  (lines.zip lines.tail).filter fun p => opensBranch c p.1

end

section

variable {c : Config}

/-- A line that opens no branch is passed over. -/
theorem openedBranches_cons {line : String} (h : opensBranch c line = false) (lines : List String) :
    openedBranches c (line :: lines) = openedBranches c lines := by
  cases lines with
  | nil => rfl
  | cons next lines => simp [openedBranches, h]

/-- Lines that open no branch are passed over. -/
theorem openedBranches_append {before : List String}
    (h : ∀ line ∈ before, opensBranch c line = false) (lines : List String) :
    openedBranches c (before ++ lines) = openedBranches c lines := by
  induction before with
  | nil => rfl
  | cons line before ih =>
    obtain ⟨hline, hbefore⟩ := List.forall_mem_cons.mp h
    rw [List.cons_append, openedBranches_cons hline, ih hbefore]

/-- A line that opens a branch is kept with the line after it. -/
theorem openedBranches_cons_cons {line : String} (h : opensBranch c line = true) (next : String)
    (lines : List String) :
    openedBranches c (line :: next :: lines) =
      (line, next) :: openedBranches c (next :: lines) := by
  simp [openedBranches, h]

/-- A last line that opens no branch is not missed. -/
theorem map_fst_openedBranches {lines : List String} {last : String}
    (hlast : opensBranch c last = false) :
    (openedBranches c (lines ++ [last])).map Prod.fst =
      (lines ++ [last]).filter (opensBranch c) := by
  induction lines with
  | nil => simp [openedBranches, hlast]
  | cons line lines ih =>
    obtain ⟨next, rest, heq⟩ := List.exists_cons_of_ne_nil
      (List.append_ne_nil_of_right_ne_nil lines (List.cons_ne_nil last []))
    rw [List.cons_append]
    by_cases hline : opensBranch c line = true
    · rw [List.filter_cons_of_pos hline, ← ih, heq, openedBranches_cons_cons hline, List.map_cons]
    · rw [List.filter_cons_of_neg hline, ← ih, openedBranches_cons (Bool.eq_false_iff.mpr hline)]

end

/-- The lines of a branch start with its head and the line that decides whether values are left out.
-/
theorem branchLines_eq (c : Config) (d : Descriptor) (b : Branch) :
    branchLines c d b =
      branchHead c b.member :: lineAfterHead c d b.member :: (branchLines c d b).drop 2 := by
  by_cases hnullable : b.member.nullability = .nonNullable
  · have hfilter : b.member.nullability.needsFilter = false := by rw [hnullable]; rfl
    simp only [branchLines, hfilter, lineAfterHead, if_pos hnullable]
    rfl
  · have hfilter : b.member.nullability.needsFilter = true := bne_iff_ne.mpr hnullable
    simp only [branchLines, hfilter, lineAfterHead, if_neg hnullable]
    rfl

/-- The head of a branch opens it. -/
theorem opensBranch_branchHead (c : Config) (m : Member) :
    opensBranch c (branchHead c m) = true := by
  have hsplit : "::names_match(property_name, " = "::names_match(" ++ "property_name, " := by decide
  rw [opensBranch, List.isPrefixOf_iff_prefix, branchHead, hsplit, ← String.append_assoc,
    String.append_assoc, String.append_assoc, String.toList_append]
  exact List.prefix_append _ _

/-! ## Lines that open none -/

/-- A line that starts otherwise does not open the table of types. -/
theorem ne_tableOpening {c : Config} {line : String}
    (h : Clash (List.replicate 5 ' ') line.toList) : line ≠ tableOpening c :=
  ne_of_clash h (prefix_text_append (prefix_text_append (prefix_literal (by decide)) _) _)

/-- The starts of the lines that open branches, if the path of the runtime library is absolute. -/
def branchOpenings : List (List Char) :=
  [List.replicate 8 ' ' ++ ['i', 'f', ' ', ':'], List.replicate 8 ' ' ++ ['i', 'f', ' ', 'c']]

/-- The path starts with `::` or with `crate`, as absolute ones do. -/
def StartsPath (path : String) : Prop := ∃ rest, path = "::" ++ rest ∨ path = "crate" ++ rest

/-- The text is on one line, and no line that it starts opens a branch. -/
structure Harmless (s : String) : Prop where
  oneLine : OneLine s
  clash : ∀ start ∈ branchOpenings, Clash start s.toList

/-- Whether a fixed text is harmless is found by looking at it. -/
theorem Harmless.literal {cs : List Char}
    (h : '\n' ∉ cs ∧ ∀ start ∈ branchOpenings, Clash start cs) : Harmless (String.ofList cs) :=
  ⟨.literal h.1, fun start hstart => .literal (h.2 start hstart)⟩

/-- A start that is harmless stays so, whatever follows in the line. -/
theorem Harmless.append {s t : String} (hs : Harmless s) (ht : OneLine t) : Harmless (s ++ t) :=
  ⟨hs.oneLine.append ht, fun start hstart => (hs.clash start hstart).text_append t⟩

/-- A harmless line opens no branch, since the path of the runtime library is absolute. -/
theorem opensBranch_of_harmless {c : Config} (hpath : StartsPath c.runtimeCrate) {line : String}
    (h : Harmless line) : opensBranch c line = false := by
  rw [Bool.eq_false_iff, ne_eq, opensBranch, List.isPrefixOf_iff_prefix]
  obtain ⟨start, hmem, hstart⟩ : ∃ start ∈ branchOpenings, start <+: (branchStart c).toList := by
    obtain ⟨rest, heq | heq⟩ := hpath
    · exact ⟨_, List.mem_cons_self, by simp [branchStart, heq, List.replicate]⟩
    · exact ⟨_, List.mem_cons_of_mem _ List.mem_cons_self, by
        simp [branchStart, heq, List.replicate]⟩
  exact (h.clash start hmem).not_start hstart

/-- Between the indentation and the path of a branch there is a space, so one word opens none. -/
theorem opensBranch_of_space_notMem {s : String} (h : ' ' ∉ s.toList) (c : Config) :
    opensBranch c ("        " ++ s) = false := by
  rw [Bool.eq_false_iff, ne_eq, opensBranch, List.isPrefixOf_iff_prefix]
  intro hprefix
  have hword : ['i', 'f', ' '] ++ (c.runtimeCrate ++ "::names_match(").toList <+: s.toList := by
    simpa [branchStart] using hprefix
  exact h (hword.subset (by simp))

/-- The line of a branch starts with more than four spaces. -/
theorem opensBranch_of_head?_ne {s : String} (h : s.toList.head? ≠ some ' ') (c : Config) :
    opensBranch c ("    " ++ s) = false := by
  rw [Bool.eq_false_iff, ne_eq, opensBranch, List.isPrefixOf_iff_prefix]
  intro hprefix
  have hspace : [' '] ++ ("   if " ++ c.runtimeCrate ++ "::names_match(").toList <+: s.toList := by
    simpa [branchStart] using hprefix
  obtain ⟨rest, hrest⟩ := hspace
  exact h (by rw [← hrest]; rfl)

/-! ## Names of generated items -/

/-- Putting underscores between words leaves an identifier one. -/
theorem isIdentContinue_snakeFrom {previous : Option Char} {separated : Bool} {cs : List Char}
    (h : ∀ c ∈ cs, isIdentContinue c = true) :
    ∀ c ∈ snakeFrom previous separated cs, isIdentContinue c = true := by
  have hunderscore : isIdentContinue '_' = true := by decide +kernel
  induction cs generalizing previous separated with
  | nil => simp [snakeFrom]
  | cons c cs ih =>
    obtain ⟨hc, hcs⟩ := List.forall_mem_cons.mp h
    -- An upper-case letter is lowered after at most one underscore; any other character stays.
    rw [snakeFrom]
    split
    · refine List.forall_mem_append.mpr ⟨List.forall_mem_append.mpr ⟨?_, ?_⟩, ih hcs⟩
      · split
        · simpa using hunderscore
        · simp
      · exact isIdentContinue_lowerChar hc
    · split
      · exact List.forall_mem_cons.mpr ⟨hunderscore, ih hcs⟩
      · exact List.forall_mem_cons.mpr ⟨hc, ih hcs⟩

/-- The name of the table of types could stand in an identifier. -/
theorem isIdentContinue_tableName {d : Descriptor} (h : IsWord d.simpleName.toList) :
    ∀ c ∈ (tableName d).toList, isIdentContinue c = true := by
  have hending : ∀ c ∈ "_PROPERTY_TYPES".toList, isIdentContinue c = true :=
    List.all_eq_true.mp (by decide +kernel)
  rw [tableName, String.toList_append, toUpperSnakeCase, upperText, String.toList_ofList,
    toSnakeCase, String.toList_ofList]
  refine List.forall_mem_append.mpr ⟨fun c hc => ?_, hending⟩
  obtain ⟨small, hsmall, hupper⟩ := List.mem_flatMap.mp hc
  exact isIdentContinue_upperChar (isIdentContinue_snakeFrom h.isIdentContinue small hsmall) c
    hupper

/-! ## The lines of an artifact -/

/-- The texts that an artifact is made of fit on lines: names are words, nothing holds a line break,
and the runtime library has an absolute path. -/
structure Writable (c : Config) (d : Descriptor) : Prop where
  crate : OneLine c.runtimeCrate
  path : StartsPath c.runtimeCrate
  simpleName : IsWord d.simpleName.toList
  fullName : OneLine d.fullName
  members : ∀ m ∈ d.members, IsWord m.name.toList ∧ OneLine m.fieldIdent ∧ OneLine m.type

/-- A branch of one of the members, whose variant could stand in an identifier. -/
structure HasBranch (d : Descriptor) (b : Branch) : Prop where
  member : b.member ∈ d.members
  variant : ∀ ch ∈ b.variant.toList, isIdentContinue ch = true

/-- The text is one line, which opens no branch. -/
structure Passed (c : Config) (line : String) : Prop where
  oneLine : OneLine line
  closed : opensBranch c line = false

/-- An empty line is passed over. -/
theorem Passed.empty (c : Config) : Passed c "" :=
  ⟨by decide, by simp [opensBranch, branchStart]⟩

namespace Writable

variable {c : Config} {d : Descriptor} (h : Writable c d)

include h

/-- Every branch of the members is one that a text can have. -/
theorem hasBranch {b : Branch} (hb : b ∈ (branches d.members).value) : HasBranch d b :=
  have hmem := member_mem_of_mem_branches hb
  ⟨hmem, isIdentContinue_variant hb (h.members _ hmem).1⟩

/-- The name of the struct has no line break. -/
theorem oneLine_simpleName : OneLine d.simpleName :=
  oneLine_of_isIdentContinue h.simpleName.isIdentContinue

/-- The name of the table has no line break. -/
theorem oneLine_tableName : OneLine (tableName d) :=
  oneLine_of_isIdentContinue (isIdentContinue_tableName h.simpleName)

/-- A harmless line is passed over. -/
theorem passed {line : String} (hline : Harmless line) : Passed c line :=
  ⟨hline.oneLine, opensBranch_of_harmless h.path hline⟩

/-- A line is harmless that starts with the path of the runtime library. -/
theorem harmless_crate :
    Harmless ("    " ++ c.runtimeCrate) ∧ Harmless ("        " ++ c.runtimeCrate) := by
  obtain ⟨rest, heq | heq⟩ := h.path
  all_goals
    obtain ⟨-, hrest⟩ := oneLine_append.mp (heq ▸ h.crate)
    rw [heq, ← String.append_assoc, ← String.append_assoc]
  · have hindents : "    " ++ "::" = "    ::" ∧ "        " ++ "::" = "        ::" := by decide
    rw [hindents.1, hindents.2]
    exact ⟨(Harmless.literal (by decide)).append hrest, (Harmless.literal (by decide)).append hrest⟩
  · have hindents : "    " ++ "crate" = "    crate" ∧ "        " ++ "crate" = "        crate" := by
      decide
    rw [hindents.1, hindents.2]
    exact ⟨(Harmless.literal (by decide)).append hrest, (Harmless.literal (by decide)).append hrest⟩

/-- A row of the table of types opens no branch. -/
theorem passed_tableRow {m : Member} (hm : m ∈ d.members) : Passed c (tableRow c m) := by
  obtain ⟨-, -, htype⟩ := h.members m hm
  exact h.passed <| (Harmless.literal (by decide)).append (oneLine_quote _)
    |>.append (.literal (by decide)) |>.append h.crate |>.append (.literal (by decide))
    |>.append htype |>.append (.literal (by decide))

/-- No line of the table of types opens a branch. -/
theorem passed_tableLines : ∀ line ∈ tableLines c d, Passed c line := by
  obtain ⟨hindent, hindent8⟩ := h.harmless_crate
  simp only [tableLines, List.forall_mem_append, List.forall_mem_cons, List.forall_mem_map,
    List.not_mem_nil, false_implies, implies_true, and_true]
  refine ⟨⟨⟨h.passed ?_, h.passed ?_, h.passed ?_, h.passed ?_⟩, fun m hm => h.passed_tableRow hm⟩,
    h.passed (.literal (by decide)), h.passed (.literal (by decide)), Passed.empty c⟩
  · exact (Harmless.literal (by decide)).append h.oneLine_simpleName
      |>.append (.literal (by decide)) |>.append h.fullName |>.append (.literal (by decide))
  · exact (Harmless.literal (by decide)).append h.oneLine_tableName |>.append (.literal (by decide))
      |>.append h.crate |>.append (.literal (by decide)) |>.append h.crate
      |>.append (.literal (by decide))
  · exact hindent.append (.literal (by decide))
  · exact hindent8.append (.literal (by decide))

/-- No line of the function that looks a type up opens a branch. -/
theorem passed_accessorLines : ∀ line ∈ accessorLines c d, Passed c line := by
  have hlookup : Passed c ("        " ++ tableName d ++ ".get(property_name)") := by
    refine ⟨?_, ?_⟩
    · exact (OneLine.literal (by decide)).append h.oneLine_tableName
        |>.append (.literal (by decide))
    · rw [String.append_assoc]
      refine opensBranch_of_space_notMem (fun hspace => ?_) c
      rw [String.toList_append, List.mem_append] at hspace
      -- The name of the table is one word, so it can hold no space.
      rcases hspace with hspace | hspace
      · exact absurd (isIdentContinue_tableName h.simpleName ' ' hspace) (by decide +kernel)
      · revert hspace
        decide
  simp only [accessorLines, List.forall_mem_cons, List.not_mem_nil, false_implies, implies_true,
    and_true]
  refine ⟨h.passed (.literal (by decide)), h.passed ?_, hlookup, h.passed (.literal (by decide)),
    Passed.empty c⟩
  exact (Harmless.literal (by decide)).append h.crate |>.append (.literal (by decide))

/-- No line of a variant opens a branch. -/
theorem passed_variantLines {b : Branch} (hb : HasBranch d b) :
    ∀ line ∈ variantLines d b, Passed c line := by
  obtain ⟨hname, -, htype⟩ := h.members b.member hb.member
  have hname := oneLine_of_isIdentContinue hname.isIdentContinue
  have hvariant := oneLine_of_isIdentContinue hb.variant
  simp only [variantLines, List.forall_mem_cons, List.not_mem_nil, false_implies, implies_true,
    and_true]
  refine ⟨h.passed ((Harmless.literal (by decide)).append hname
    |>.append (.literal (by decide))), ?_, ?_⟩
  · exact (OneLine.literal (by decide)).append hvariant |>.append (.literal (by decide))
      |>.append htype |>.append (.literal (by decide)) |>.append h.fullName
      |>.append (.literal (by decide))
  · simp only [String.append_assoc]
    -- A variant is a word, so the line under the accessor's head cannot start with a space.
    refine opensBranch_of_head?_ne (fun hspace => ?_) c
    rw [String.toList_append, List.head?_append] at hspace
    cases hhead : b.variant.toList.head? with
    | none => simp [hhead] at hspace
    | some ch =>
      rw [hhead, Option.some_or] at hspace
      obtain rfl := Option.some.inj hspace
      exact absurd (hb.variant ' ' (List.mem_of_head? hhead)) (by decide +kernel)

/-- No line of the type of groups opens a branch. -/
theorem passed_groupingLines {bs : List Branch} (hbs : ∀ b ∈ bs, HasBranch d b) :
    ∀ line ∈ groupingLines d bs, Passed c line := by
  simp only [groupingLines, groupingName, List.forall_mem_append, List.forall_mem_cons,
    List.forall_mem_flatMap, List.not_mem_nil, false_implies, implies_true, and_true]
  refine ⟨⟨⟨h.passed ?_, h.passed ?_⟩, ?_⟩, h.passed (.literal (by decide)), Passed.empty c⟩
  · exact (Harmless.literal (by decide)).append h.oneLine_simpleName
      |>.append (.literal (by decide)) |>.append h.fullName |>.append (.literal (by decide))
  · exact (Harmless.literal (by decide)).append (h.oneLine_simpleName.append (.literal (by decide)))
      |>.append (.literal (by decide))
  · exact fun b hb => h.passed_variantLines (hbs b hb)

/-- Within a branch no other branch is opened. -/
theorem passed_tail_branchLines {b : Branch} (hb : HasBranch d b) :
    ∀ line ∈ (branchLines c d b).tail, Passed c line := by
  obtain ⟨-, hident, htype⟩ := h.members b.member hb.member
  have hfilter : Passed c (filterLine c b.member.fieldIdent) := h.passed <|
    (Harmless.literal (by decide)).append h.crate |>.append (.literal (by decide)) |>.append hident
      |>.append (.literal (by decide))
  simp only [branchLines, groupingName, List.cons_append, List.nil_append, List.tail_cons,
    List.forall_mem_append, List.forall_mem_cons, List.not_mem_nil, false_implies, implies_true,
    and_true]
  -- The filter line is there for nullable members only; the other three lines always are.
  refine ⟨?_, h.passed ?_, h.passed ?_, h.passed (.literal (by decide))⟩
  · split
    · exact List.forall_mem_singleton.mpr hfilter
    · exact List.forall_mem_nil _
  · exact (Harmless.literal (by decide)).append h.crate |>.append (.literal (by decide))
      |>.append h.fullName |>.append (.literal (by decide)) |>.append htype
      |>.append (.literal (by decide)) |>.append h.fullName |>.append (.literal (by decide))
      |>.append hident |>.append (.literal (by decide))
  · exact (Harmless.literal (by decide)).append (h.oneLine_simpleName.append (.literal (by decide)))
      |>.append (.literal (by decide)) |>.append (oneLine_of_isIdentContinue hb.variant)
      |>.append (.literal (by decide))

/-- The head of a branch is one line, since names are quoted. -/
theorem oneLine_branchHead {m : Member} : OneLine (branchHead c m) :=
  (OneLine.literal (by decide)).append h.crate |>.append (.literal (by decide))
    |>.append (oneLine_quote _) |>.append (.literal (by decide))

/-- Each branch opens with its head, and nothing else in it opens another one. -/
theorem openedBranches_flatMap {bs : List Branch} (hbs : ∀ b ∈ bs, HasBranch d b)
    {after : List String} (hafter : ∀ line ∈ after, opensBranch c line = false) :
    openedBranches c (bs.flatMap (branchLines c d) ++ after) =
      bs.map fun b => (branchHead c b.member, lineAfterHead c d b.member) := by
  induction bs with
  | nil =>
    have hnone := openedBranches_append hafter []
    rwa [List.append_nil] at hnone
  | cons b bs ih =>
    -- A branch opens with its head, and none of its further lines opens another.
    obtain ⟨hb, hbs⟩ := List.forall_mem_cons.mp hbs
    have heq := branchLines_eq c d b
    have htail := h.passed_tail_branchLines hb
    rw [heq, List.tail_cons] at htail
    rw [List.flatMap_cons, heq, List.append_assoc, List.cons_append, List.cons_append,
      openedBranches_cons_cons (opensBranch_branchHead c b.member), ← List.cons_append,
      openedBranches_append (fun line hline => (htail line hline).closed), ih hbs, List.map_cons]

/-- What stands around the branches in the function that groups values. -/
theorem passed_dispatchLines : ∀ line ∈ dispatchLines c d [], Passed c line := by
  have hgrouping : OneLine (groupingName d) :=
    h.oneLine_simpleName.append (.literal (by decide))
  simp only [dispatchLines, List.flatMap_nil, List.append_nil, List.cons_append, List.nil_append,
    List.forall_mem_cons, List.not_mem_nil, false_implies, implies_true, and_true]
  -- Only three lines hold anything from the descriptor; the others are fixed.
  refine ⟨h.passed (.literal (by decide)), h.passed (.literal (by decide)),
    h.passed (.literal (by decide)), h.passed (.literal (by decide)),
    h.passed (.literal (by decide)), h.passed ?_, h.passed (.literal (by decide)), h.passed ?_,
    h.passed (.literal (by decide)), h.passed ?_, h.passed (.literal (by decide)),
    h.passed (.literal (by decide)), h.passed (.literal (by decide)),
    h.passed (.literal (by decide)), h.passed (.literal (by decide))⟩
  · exact (Harmless.literal (by decide)).append hgrouping |>.append (.literal (by decide))
  · exact (Harmless.literal (by decide)).append h.fullName |>.append (.literal (by decide))
  · exact (Harmless.literal (by decide)).append h.fullName |>.append (.literal (by decide))

/-- Around the branches of an artifact there are lines that open none. -/
theorem exists_artifactLines {bs : List Branch} (hbs : ∀ b ∈ bs, HasBranch d b) :
    ∃ before after, artifactLines c d bs = before ++ (bs.flatMap (branchLines c d) ++ after) ∧
      (∀ line ∈ before, Passed c line) ∧ ∀ line ∈ after, Passed c line := by
  let before := [artifactHeader, "// Source type: " ++ d.fullName, ""] ++ tableLines c d ++
    groupingLines d bs ++ ["impl " ++ d.fullName ++ " \x7b"] ++ accessorLines c d
  -- Nothing before or after the branches depends on them: cut the frame around an empty list.
  refine ⟨before ++ (dispatchLines c d []).take 13, (dispatchLines c d []).drop 13 ++ ["\x7d"],
    ?_, ?_, ?_⟩
  · simp only [artifactLines, dispatchLines, before, List.append_assoc, List.flatMap_nil]
    rfl
  · have hsource : Passed c ("// Source type: " ++ d.fullName) :=
      h.passed ((Harmless.literal (by decide)).append h.fullName)
    have himpl : Passed c ("impl " ++ d.fullName ++ " \x7b") :=
      h.passed ((Harmless.literal (by decide)).append h.fullName |>.append (.literal (by decide)))
    simp only [before, List.forall_mem_append, List.forall_mem_cons, List.not_mem_nil,
      false_implies, implies_true, and_true]
    exact ⟨⟨⟨⟨⟨⟨h.passed (.literal (by decide)), hsource, Passed.empty c⟩, h.passed_tableLines⟩,
      h.passed_groupingLines hbs⟩, himpl⟩, h.passed_accessorLines⟩,
      fun line hline => h.passed_dispatchLines line (List.mem_of_mem_take hline)⟩
  · refine List.forall_mem_append.mpr ⟨fun line hline => ?_, ?_⟩
    · exact h.passed_dispatchLines line (List.mem_of_mem_drop hline)
    · exact List.forall_mem_singleton.mpr (h.passed (.literal (by decide)))

/-- The lines of the text of an artifact are those that it was made of, with an empty one at the
end. -/
theorem textLines_artifact {bs : List Branch} (hbs : ∀ b ∈ bs, HasBranch d b) :
    textLines (joinLines (artifactLines c d bs)) = artifactLines c d bs ++ [""] := by
  obtain ⟨before, after, heq, hbefore, hafter⟩ := h.exists_artifactLines hbs
  refine textLines_joinLines ?_
  rw [heq]
  refine List.forall_mem_append.mpr ⟨fun line hline => (hbefore line hline).oneLine,
    List.forall_mem_append.mpr ⟨?_, fun line hline => (hafter line hline).oneLine⟩⟩
  refine List.forall_mem_flatMap.mpr fun b hb => ?_
  have htail := h.passed_tail_branchLines (hbs b hb)
  rw [branchLines_eq, List.tail_cons] at htail
  rw [branchLines_eq]
  exact List.forall_mem_cons.mpr
    ⟨h.oneLine_branchHead, fun line hline => (htail line hline).oneLine⟩

/-- The lines of an artifact that open branches, each with the line after it. -/
theorem openedBranches_artifactLines {bs : List Branch} (hbs : ∀ b ∈ bs, HasBranch d b) :
    openedBranches c (artifactLines c d bs ++ [""]) =
      bs.map fun b => (branchHead c b.member, lineAfterHead c d b.member) := by
  obtain ⟨before, after, heq, hbefore, hafter⟩ := h.exists_artifactLines hbs
  rw [heq, List.append_assoc, openedBranches_append fun line hline => (hbefore line hline).closed,
    List.append_assoc]
  refine h.openedBranches_flatMap hbs (List.forall_mem_append.mpr ⟨?_, ?_⟩)
  · exact fun line hline => (hafter line hline).closed
  · exact List.forall_mem_singleton.mpr (Passed.empty c).closed

/-- The rows between the lines around the table of types are those of the members. -/
theorem tableSection_artifactLines (bs : List Branch) (rest : List String) :
    tableSection c (artifactLines c d bs ++ rest) = d.members.map (tableRow c) := by
  let before := [artifactHeader, "// Source type: " ++ d.fullName, ""] ++ (tableLines c d).take 3
  let after := ["    \x7d);", ""] ++ (groupingLines d bs ++ ["impl " ++ d.fullName ++ " \x7b"] ++
    accessorLines c d ++ dispatchLines c d bs ++ ["\x7d"] ++ rest)
  have hlazy : Clash (List.replicate 5 ' ') ("    " ++ c.runtimeCrate).toList := by
    obtain ⟨rest, heq | heq⟩ := h.path <;> simp [Clash, List.replicate, heq]
  have hbefore : ∀ line ∈ before, line ≠ tableOpening c := by
    simp only [before, tableLines, List.cons_append, List.nil_append, List.take_succ_cons,
      List.take_zero, List.forall_mem_cons, List.not_mem_nil, false_implies, implies_true, and_true]
    refine ⟨ne_tableOpening (.literal (by decide)),
      ne_tableOpening ((Clash.literal (by decide)).text_append _), ?_, ne_tableOpening ?_,
      ne_tableOpening ?_, ne_tableOpening (hlazy.text_append _)⟩
    · exact fun heq => by simpa [tableOpening] using congrArg String.toList heq
    · exact (Clash.literal (by decide)).text_append _ |>.text_append _ |>.text_append _
        |>.text_append _
    · exact (Clash.literal (by decide)).text_append _ |>.text_append _ |>.text_append _
        |>.text_append _ |>.text_append _ |>.text_append _
  have hrows : ∀ line ∈ d.members.map (tableRow c), line ≠ tableClosing := by
    have hclosing : List.replicate 8 ' ' ++ [']'] <+: tableClosing.toList := by decide
    refine List.forall_mem_map.mpr fun m _ => ne_of_clash ?_ hclosing
    exact (Clash.literal (by decide)).text_append _ |>.text_append _ |>.text_append _
      |>.text_append _ |>.text_append _ |>.text_append _
  -- no line before the rows opens the table, and no row closes it
  have hsplit : artifactLines c d bs ++ rest =
      before ++ tableOpening c :: (d.members.map (tableRow c) ++ tableClosing :: after) := by
    simp only [artifactLines, tableLines, before, after, List.append_assoc]
    rfl
  rw [tableSection, hsplit,
    List.dropWhile_append_of_pos fun line hline => bne_iff_ne.mpr (hbefore line hline),
    List.dropWhile_cons_of_neg (by simp), List.drop_one, List.tail_cons,
    List.takeWhile_append_of_pos fun line hline => bne_iff_ne.mpr (hrows line hline),
    List.takeWhile_cons_of_neg (by simp), List.append_nil]

end Writable

/-! ## Described structs -/

/-- The texts that a descriptor holds. -/
def Descriptor.texts (d : Descriptor) : List String :=
  d.simpleName :: d.fullName :: d.members.flatMap fun m => [m.name, m.fieldIdent, m.type]

/-- The texts of a description are those of its members too. -/
theorem Descriptor.mem_texts_of_mem {d : Descriptor} {m : Member} (hm : m ∈ d.members) :
    m.fieldIdent ∈ d.texts ∧ m.type ∈ d.texts := by
  have hsub : ∀ s ∈ [m.name, m.fieldIdent, m.type], s ∈ d.texts := fun s hs =>
    List.mem_cons_of_mem _ (List.mem_cons_of_mem _ (List.mem_flatMap_of_mem hm hs))
  exact ⟨hsub _ (by simp), hsub _ (by simp)⟩

/-- The struct and the members of a description are named by words. -/
theorem isWord_of_describeSource {c : Config} {source origin : String} {ds : List Descriptor}
    (h : (describeSource c source origin).run.value = .ok ds) {d : Descriptor} (hd : d ∈ ds) :
    IsWord d.simpleName.toList ∧ ∀ m ∈ d.members, IsWord m.name.toList := by
  rw [value_describeSource] at h
  cases hprepare : prepare c source origin with
  | error fault =>
    rw [hprepare] at h
    cases h
  | ok prepared =>
    obtain ⟨root, items⟩ := prepared
    rw [hprepare] at h
    obtain rfl : (describeItems c root items).value = ds := Except.ok.inj h
    have hparse : parseFile source = some items := parseFile_of_prepare hprepare
    rw [value_describeItems, value_scan_selected, List.map_map] at hd
    obtain ⟨e, he, rfl⟩ := List.mem_map.mp hd
    have hat : StructAt root items e.1 e.2 := mem_structsFrom_zero_iff.mp (List.mem_filter.mp he).1
    constructor
    -- Both names were read from the file, whose identifiers are all words.
    · have hname : e.2.item.name ∈ namePartsIn items :=
        hat.subset_namePartsIn (List.mem_append_right _ (List.mem_singleton.mpr rfl))
      exact (lexical_of_parseFile hparse _ hname).1.1
    · intro m hm
      rw [Function.comp_apply, members_describe] at hm
      obtain ⟨⟨i, f⟩, hfield, rfl⟩ := List.mem_map.mp hm
      rw [(memberOf_name _ _ _ _).1]
      obtain ⟨g, hg, hkept⟩ := List.mem_filterMap.mp hfield
      obtain ⟨j, hj, hlexical⟩ := hat.fieldsLexical hparse g hg
      rw [hj] at hkept
      split at hkept
      · cases hkept
      · cases hkept
        exact hlexical.1

/-- An absolute path starts with `::` or with `crate`. -/
theorem startsPath_of_isAbsolutePath {path : String} (h : isAbsolutePath path = true) :
    StartsPath path := by
  rw [isAbsolutePath] at h
  split at h
  · next rest hdrop => exact ⟨rest, Or.inl (eq_append_of_dropStart? hdrop)⟩
  · rw [Bool.and_eq_true, Bool.or_eq_true, beq_iff_eq] at h
    rcases h.1 with rfl | hsome
    · exact ⟨"", Or.inr rfl⟩
    · obtain ⟨rest, hdrop⟩ := Option.isSome_iff_exists.mp hsome
      refine ⟨"::" ++ rest, Or.inr ?_⟩
      rw [eq_append_of_dropStart? hdrop, ← String.append_assoc]
      rfl

/-- What is described can be written on lines, if the runtime library has an absolute path and no
text holds a line break. -/
theorem writable_of_describeSource {c e : Config} {source origin : String} {ds : List Descriptor}
    (hc : c.validate = .ok ()) (hds : (describeSource e source origin).run.value = .ok ds)
    {d : Descriptor} (hd : d ∈ ds) (htexts : ∀ s ∈ d.texts, OneLine s)
    (hcrate : OneLine c.runtimeCrate) : Writable c d := by
  obtain ⟨hsimple, hmembers⟩ := isWord_of_describeSource hds hd
  refine ⟨hcrate, startsPath_of_isAbsolutePath (Config.validate_eq_ok_iff.mp hc).2.1, hsimple,
    htexts _ (by simp [Descriptor.texts]), fun m hm => ?_⟩
  obtain ⟨hident, htype⟩ := Descriptor.mem_texts_of_mem hm
  exact ⟨hmembers m hm, htexts _ hident, htexts _ htype⟩

/-- A word is not empty. -/
theorem ne_empty_of_isWord {s : String} (h : IsWord s.toList) : s ≠ "" := by
  rintro rfl
  obtain ⟨c, more, heq, -⟩ := h
  cases heq

/-- A struct with a name and members has an artifact. -/
theorem value_emit (c : Config) {d : Descriptor} (hname : d.simpleName ≠ "")
    (hmembers : d.members ≠ []) :
    (emit c d).value = some ⟨artifactName c d.simpleName,
      joinLines (artifactLines c d (branches d.members).value)⟩ := by
  have hsimple : d.simpleName.isEmpty = false := by
    simpa using hname
  have hnonempty : d.members.isEmpty = false := List.isEmpty_eq_false_iff.mpr hmembers
  rw [emit, hsimple, hnonempty]
  rfl

/-- The text of an artifact is made of its lines. -/
theorem contents_of_emit {c : Config} {d : Descriptor} {a : Artifact}
    (h : (emit c d).value = some a) :
    a.contents = joinLines (artifactLines c d (branches d.members).value) := by
  have hparts : d.simpleName ≠ "" ∧ d.members ≠ [] := by
    constructor <;> intro hempty <;> simp [emit, hempty] at h
  rw [value_emit c hparts.1 hparts.2] at h
  rw [← Option.some.inj h]

/-- The line after the head of a branch leaves absent values of a field out exactly if it is the
field of the member and its values can be absent. -/
theorem lineAfterHead_eq_filterLine_iff (c : Config) (d : Descriptor) (m : Member)
    (field : String) :
    lineAfterHead c d m = filterLine c field ↔
      field = m.fieldIdent ∧ m.nullability ≠ .nonNullable := by
  by_cases hnullable : m.nullability = .nonNullable
  -- The two lines part within a fixed number of characters, whatever the texts in them are.
  · have hgroup : Clash (List.replicate 12 ' ' ++ ['l', 'e', 't', ' ', 's'])
        (groupLine c d m).toList :=
      (Clash.literal (by decide)).text_append _ |>.text_append _ |>.text_append _ |>.text_append _
        |>.text_append _ |>.text_append _ |>.text_append _ |>.text_append _ |>.text_append _
        |>.text_append _
    have hne : groupLine c d m ≠ filterLine c field := ne_of_clash hgroup <|
      prefix_text_append (prefix_text_append (prefix_text_append (prefix_text_append
        (prefix_literal (by decide)) _) _) _) _
    rw [lineAfterHead, if_pos hnullable]
    exact iff_of_false hne fun hfield => hfield.2 hnullable
  · have hfields : filterLine c m.fieldIdent = filterLine c field ↔ m.fieldIdent = field :=
      (String.append_left_inj _).trans (String.append_right_inj _)
    rw [lineAfterHead, if_neg hnullable, hfields, and_iff_left hnullable]
    exact eq_comm

/-- The artifact of a described struct has one branch for the first member of each key, in order, if
the settings can be used and no text of the description and of the path of the runtime library holds
a line break. The branch leaves absent values of the member's field out if there can be some, and
leaves nothing out otherwise. The table of types has one row for each member, in order, with its
type. -/
theorem emitted_branches_and_rows {c e : Config} {source origin : String} {ds : List Descriptor}
    (hc : c.validate = .ok ()) (hds : (describeSource e source origin).run.value = .ok ds)
    {d : Descriptor} (hd : d ∈ ds) (hmembers : d.members ≠ []) (htexts : ∀ s ∈ d.texts, OneLine s)
    (hcrate : OneLine c.runtimeCrate) :
    ∃ a, (emit c d).value = some a ∧
      let lines := textLines a.contents
      lines.filter (opensBranch c) = (firstOccurrences d.members).map (branchHead c) ∧
      List.Forall₂ (fun m p => p.1 = branchHead c m ∧ ∀ field, p.2 = filterLine c field ↔
          field = m.fieldIdent ∧ m.nullability ≠ .nonNullable)
        (firstOccurrences d.members) (openedBranches c lines) ∧
      tableSection c lines = d.members.map fun m =>
        "            (" ++ quote m.name ++ ", " ++ c.runtimeCrate ++ "::TypeIdentity::of::<" ++
          m.type ++ ">())," := by
  have h := writable_of_describeSource hc hds hd htexts hcrate
  -- What the branches are made of passes every line test, so only heads open a branch.
  have hbs : ∀ b ∈ (branches d.members).value, HasBranch d b := fun b hb => h.hasBranch hb
  have hfirst : firstOccurrences d.members = (branches d.members).value.map Branch.member := by
    rw [map_member_branches, firstOfKeys_eq_firstOccurrences]
  have hopened := h.openedBranches_artifactLines hbs
  refine ⟨_, value_emit c (ne_empty_of_isWord h.simpleName) hmembers, ?_⟩
  dsimp only
  rw [h.textLines_artifact hbs, hfirst, hopened]
  refine ⟨?_, ?_, h.tableSection_artifactLines _ _⟩
  · rw [← map_fst_openedBranches (Passed.empty c).closed, hopened, List.map_map, List.map_map]
    rfl
  · rw [List.forall₂_map_left_iff, List.forall₂_map_right_iff, List.forall₂_same]
    exact fun b _ => ⟨rfl, lineAfterHead_eq_filterLine_iff c d b.member⟩

/-- A struct with a field that differs from the first in case alone, one that has another type too,
and one whose values can be absent. -/
def cardText : String :=
  "#[crate::A] struct Card \x7b id: u8, ID: u8, Id: u16, r#fn: Option<u8> \x7d"

/-- The description of this struct. -/
def card : Descriptor :=
  ⟨"Card", "crate::Card",
    [⟨"id", "id", "u8", true, .nonNullable⟩, ⟨"ID", "ID", "u8", true, .nonNullable⟩,
      ⟨"Id", "Id", "u16", true, .nonNullable⟩,
      ⟨"fn", "r#fn", "::core::option::Option<u8>", true, .optionalValue⟩]⟩

theorem emitted_branches_and_rows_card :
    let c := { Config.default with qualifyingAnnotations := ["crate::A"] }
    c.validate = .ok () ∧ (describeSource c cardText "card.rs").run.value = .ok [card] ∧
      card.members ≠ [] ∧ (∀ s ∈ card.texts, OneLine s) ∧ OneLine c.runtimeCrate ∧
      firstOccurrences card.members =
        [⟨"id", "id", "u8", true, .nonNullable⟩, ⟨"Id", "Id", "u16", true, .nonNullable⟩,
          ⟨"fn", "r#fn", "::core::option::Option<u8>", true, .optionalValue⟩] ∧
      ∃ a, (emit c card).value = some a ∧
        let lines := textLines a.contents
        lines.filter (opensBranch c) =
          ["        if ::propgroup::names_match(property_name, \"id\") \x7b",
            "        if ::propgroup::names_match(property_name, \"Id\") \x7b",
            "        if ::propgroup::names_match(property_name, \"fn\") \x7b"] ∧
        List.Forall₂ (fun m p => p.1 = branchHead c m ∧ ∀ field, p.2 = filterLine c field ↔
            field = m.fieldIdent ∧ m.nullability ≠ .nonNullable)
          (firstOccurrences card.members) (openedBranches c lines) ∧
        tableSection c lines =
          ["            (\"id\", ::propgroup::TypeIdentity::of::<u8>()),",
            "            (\"ID\", ::propgroup::TypeIdentity::of::<u8>()),",
            "            (\"Id\", ::propgroup::TypeIdentity::of::<u16>()),",
            "            (\"fn\", ::propgroup::TypeIdentity::of::<::core::option::Option<u8>>()),"] := by
  intro c
  have hc : c.validate = .ok () := by decide +kernel
  have hds : (describeSource c cardText "card.rs").run.value = .ok [card] := by decide +kernel
  have hmembers : card.members ≠ [] := by decide
  have htexts : ∀ s ∈ card.texts, OneLine s := by decide +kernel
  have hcrate : OneLine c.runtimeCrate := by decide +kernel
  obtain ⟨a, ha, hheads, hlines, hrows⟩ :=
    emitted_branches_and_rows hc hds List.mem_cons_self hmembers htexts hcrate
  refine ⟨hc, hds, hmembers, htexts, hcrate, by decide +kernel, a, ha, hheads.trans ?_, hlines,
    hrows.trans ?_⟩
  · decide +kernel
  · decide +kernel

end Memberwise
