import Memberwise.Dispatch
import Memberwise.Proofs.ArtifactText

/-!
# Memberwise.Proofs.BranchCode — the text of branches and what they do

The function that groups values is a list of arms, which are tried in turn. An arm has a condition,
steps that change the local variables, and an answer. It can be written as lines of text
(`Arm.lines`), and it can be run on records of which it is known how their fields are read
(`Arm.run`). The arms of a declaration written as lines are the text that is emitted
(`functionLines_functionArms`); run, they group records as grouping by a property does
(`runArms_functionArms`). So the text of every artifact does what grouping by a property says
(`emit_groupByProperty`).
-/

namespace Memberwise

open Text

/-! ## Arms -/

/-- A step changes the local variables. -/
inductive Step where
  /-- Leaves out the records in which a field is absent. -/
  | dropAbsent (field : String)
  /-- Groups the records by a field of a type. -/
  | group (field type : String)
deriving DecidableEq, Repr

/-- What an arm depends on. -/
inductive Condition where
  /-- There are no records, or no name. -/
  | nothingGiven
  /-- The request matches a name. -/
  | matching (name : String)
deriving DecidableEq, Repr

/-- An arm answers with nothing, or with the groups as a variant. -/
structure Arm where
  condition : Condition
  steps : List Step
  variant? : Option String
deriving DecidableEq, Repr

/-- The arm of a branch. -/
def Branch.arm (b : Branch) : Arm where
  condition := .matching b.member.name
  steps :=
    (if b.member.nullability.needsFilter then [.dropAbsent b.member.fieldIdent] else []) ++
      [.group b.member.fieldIdent b.member.type]
  variant? := some b.variant

/-- The arms of the function that groups values. -/
def functionArms (bs : List Branch) : List Arm := ⟨.nothingGiven, [], none⟩ :: bs.map Branch.arm

/-! ## Arms as text -/

section

variable (c : Config) (d : Descriptor)

/-- A step as a line. -/
def Step.line : Step → String
  | dropAbsent field => filterLine c field
  | group field type =>
    "            let groups = " ++ c.runtimeCrate ++ "::group_by::<" ++ d.fullName ++ ", " ++
      type ++ ", _, _>(source, |item: &" ++ d.fullName ++ "| item." ++ field ++ ".clone());"

/-- A condition as an expression. -/
def Condition.text : Condition → String
  | nothingGiven => "source.is_empty() || property_name.is_empty()"
  | matching name => c.runtimeCrate ++ "::names_match(property_name, " ++ quote name ++ ")"

/-- An answer as an expression. -/
def answerText : Option String → String
  | none => "::core::option::Option::None"
  | some variant =>
    "::core::option::Option::Some(" ++ groupingName d ++ "::" ++ variant ++ "(groups.into_map()))"

/-- An arm as lines. -/
def Arm.lines (a : Arm) : List String :=
  ["        if " ++ a.condition.text c ++ " \x7b"] ++ a.steps.map (Step.line c d) ++
  ["            return " ++ answerText d a.variant? ++ ";",
   "        \x7d"]

/-- A function that tries arms in turn, as lines. -/
def functionLines (arms : List Arm) : List String :=
  ["    /// Group `source` by the member named `property_name`, ignoring case.",
   "    ///",
   "    /// Elements whose member value is absent are left out. Returns `None` for",
   "    /// empty input, an empty name, or a name that matches no member.",
   "    #[allow(clippy::clone_on_copy)]",
   "    pub fn group_by_property<I>(source: I, property_name: &str) -> ::core::option::Option<" ++
     groupingName d ++ ">",
   "    where",
   "        I: ::core::iter::IntoIterator<Item = " ++ d.fullName ++ ">,",
   "    \x7b",
   "        let source: ::std::vec::Vec<" ++ d.fullName ++
     "> = ::core::iter::IntoIterator::into_iter(source).collect();"] ++
  arms.flatMap (Arm.lines c d) ++
  ["        " ++ answerText d none,
   "    \x7d"]

/-- The line that opens an arm for a name opens the branch of a member. -/
theorem head_matching (m : Member) :
    "        if " ++ (Condition.matching m.name).text c ++ " \x7b" = branchHead c m := by
  have hline : ∀ lead crate names name close brace closed : String, close ++ brace = closed →
      lead ++ (crate ++ names ++ name ++ close) ++ brace =
        lead ++ crate ++ names ++ name ++ closed := by
    rintro _ _ _ _ _ _ _ rfl
    simp [String.append_assoc]
  exact hline _ _ _ _ _ _ _ (by decide +kernel)

/-- The line that answers with a variant is the one that returns from its branch. -/
theorem return_some (variant : String) :
    "            return " ++ answerText d (some variant) ++ ";" =
      "            return ::core::option::Option::Some(" ++ groupingName d ++ "::" ++ variant ++
        "(groups.into_map()));" := by
  have hline : ∀ lead opening type colons variant close stop opened closed : String,
      lead ++ opening = opened → close ++ stop = closed →
        lead ++ (opening ++ type ++ colons ++ variant ++ close) ++ stop =
          opened ++ type ++ colons ++ variant ++ closed := by
    rintro _ _ _ _ _ _ _ _ _ rfl rfl
    simp [String.append_assoc]
  exact hline _ _ _ _ _ _ _ _ _ (by decide +kernel) (by decide +kernel)

/-- The lines of a branch are those of its arm. -/
theorem Branch.lines_arm (b : Branch) : b.arm.lines c d = branchLines c d b := by
  have hsteps : b.arm.steps.map (Step.line c d) =
      (if b.member.nullability.needsFilter then [filterLine c b.member.fieldIdent] else []) ++
        [groupLine c d b.member] := by
    rw [Branch.arm, List.map_append]
    -- The filter is there for nullable members only.
    split
    · rfl
    · rfl
  have hhead : "        if " ++ b.arm.condition.text c ++ " \x7b" = branchHead c b.member :=
    head_matching c b.member
  have hreturn := return_some d b.variant
  rw [Arm.lines, hsteps, hhead, show b.arm.variant? = some b.variant from rfl, hreturn,
    List.append_assoc, List.append_assoc]
  rfl

/-- The arms of a declaration, as lines, are what is emitted. -/
theorem functionLines_functionArms (bs : List Branch) :
    functionLines c d (functionArms bs) = dispatchLines c d bs := by
  -- The joined literals are compared by the kernel once; rewriting inside them would be slow.
  have hhead : "        if " ++ "source.is_empty() || property_name.is_empty()" ++ " \x7b" =
      "        if source.is_empty() || property_name.is_empty() \x7b" := by decide +kernel
  have hreturn : "            return " ++ "::core::option::Option::None" ++ ";" =
      "            return ::core::option::Option::None;" := by decide +kernel
  have hguard : (⟨.nothingGiven, [], none⟩ : Arm).lines c d =
      ["        if source.is_empty() || property_name.is_empty() \x7b",
       "            return ::core::option::Option::None;",
       "        \x7d"] :=
    congrArg₂ (fun head answer => [head, answer, "        \x7d"]) hhead hreturn
  have hlast : "        " ++ answerText d none = "        ::core::option::Option::None" :=
    show "        " ++ "::core::option::Option::None" = _ by decide +kernel
  have hbranches : (bs.map Branch.arm).flatMap (Arm.lines c d) = bs.flatMap (branchLines c d) := by
    rw [List.flatMap_map]
    exact List.flatMap_congr fun b _ => b.lines_arm c d
  rw [functionLines, functionArms, List.flatMap_cons, hguard, hbranches, dispatchLines,
    ← List.append_assoc]
  exact congrArg (fun line => _ ++ [line, "    \x7d"]) hlast

end

/-! ## Arms as code -/

/-- The local variables: the records that are left, and their groups. -/
structure Variables (κ ρ : Type) where
  source : List ρ
  groups : Groups κ ρ

section

variable {κ ρ : Type} (read : String → ρ → κ)

/-- Whether the condition of an arm holds. -/
def Condition.holds (source : List ρ) (request : String) : Condition → Bool
  | nothingGiven => source.isEmpty || request.isEmpty
  | matching name => namesMatch request name

variable [BEq κ] [Hashable κ] [MaybeAbsent κ]

/-- The variables after a step. -/
def Step.run (v : Variables κ ρ) : Step → Variables κ ρ
  | dropAbsent field => { v with source := v.source.filter fun r => !isAbsent (read field r) }
  | group field _ => { v with groups := groupBy (read field) v.source }

/-- The answer of an arm. -/
def Arm.run (source : List ρ) (a : Arm) : Option (Grouping κ ρ) :=
  a.variant?.map fun variant =>
    ⟨variant, (a.steps.foldl (Step.run read) ⟨source, ⟨#[]⟩⟩).groups.toMap⟩

/-- The answer of the first arm whose condition holds. -/
def runArms (source : List ρ) (request : String) : List Arm → Option (Grouping κ ρ)
  | [] => none
  | a :: arms =>
    if a.condition.holds source request then a.run read source else runArms source request arms

variable {read}

/-- The arm of a property groups the records by it. -/
theorem Property.run_arm {p : Property ρ κ} (hread : p.value = read p.member.fieldIdent)
    (variant : String) (source : List ρ) :
    (Branch.arm ⟨p.member, variant⟩).run read source =
      some ⟨variant, (p.groups source).toMap⟩ := by
  simp only [Arm.run, Branch.arm, Option.map_some, Property.groups, Property.present, hread]
  by_cases hfilter : p.member.nullability.needsFilter = true
  · rw [if_pos hfilter, if_pos hfilter]
    rfl
  · rw [if_neg hfilter, if_neg hfilter]
    rfl

/-- Arms of branches answer for the first branch whose member the request matches. -/
theorem runArms_map_arm (bs : List Branch) (source : List ρ) (request : String) :
    runArms read source request (bs.map Branch.arm) =
      (bs.find? fun b => namesMatch request b.member.name).bind fun b => b.arm.run read source := by
  induction bs with
  | nil => rfl
  | cons b bs ih =>
    have hcondition : b.arm.condition.holds source request = namesMatch request b.member.name := rfl
    rw [List.map_cons, runArms, hcondition, ih, List.find?_cons]
    cases namesMatch request b.member.name with
    | true => rfl
    | false => rfl

/-- The arms of a declaration group records by a property, where a field is read as the value of its
property. -/
theorem runArms_functionArms {ps : List (Property ρ κ)}
    (hread : ∀ p ∈ ps, p.value = read p.member.fieldIdent) (source : List ρ) (request : String) :
    runArms read source request (functionArms (propertyBranches ps)) =
      groupByProperty ps source request := by
  rw [functionArms, runArms, groupByProperty]
  by_cases hnothing : (source.isEmpty || request.isEmpty) = true
  · rw [if_pos hnothing]
    exact if_pos hnothing
  rw [if_neg hnothing, runArms_map_arm]
  refine (if_neg hnothing).trans (Option.bind_congr fun b hb => ?_)
  -- the first property with the member of the branch need not be the one the branch was made for,
  -- but it reads the same field
  have hbranch : b ∈ propertyBranches ps := List.mem_of_find?_eq_some hb
  obtain ⟨p, hp, hmember⟩ := List.mem_map.mp (member_mem_of_mem_branches hbranch)
  have hfound : (ps.find? fun q => q.member == b.member).isSome = true :=
    List.find?_isSome.mpr ⟨p, hp, by simpa using hmember⟩
  obtain ⟨q, hq⟩ := Option.isSome_iff_exists.mp hfound
  have hqmember : q.member = b.member := by simpa using List.find?_some hq
  have hrun := Property.run_arm (hread q (List.mem_of_find?_eq_some hq)) b.variant source
  rw [hqmember] at hrun
  rw [hrun, hq]
  rfl

/-- The text of an artifact ends with the lines of a function and the end of its block. The
function, run, groups records by a property. -/
theorem emit_groupByProperty {c : Config} {d : Descriptor} {a : Artifact}
    (h : (emit c d).value = some a) {ps : List (Property ρ κ)}
    (hps : ps.map Property.member = d.members)
    (hread : ∀ p ∈ ps, p.value = read p.member.fieldIdent) :
    ∃ before arms, a.contents = joinLines (before ++ functionLines c d arms ++ ["\x7d"]) ∧
      ∀ source request, runArms read source request arms = groupByProperty ps source request := by
  have hlines : functionLines c d (functionArms (propertyBranches ps)) =
      dispatchLines c d (branches d.members).value := by
    rw [functionLines_functionArms, propertyBranches, hps]
  have htext := contents_of_emit h
  rw [artifactLines, ← hlines] at htext
  exact ⟨_, _, htext, runArms_functionArms hread⟩

end

end Memberwise
