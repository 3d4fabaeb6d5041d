import Mathlib.Data.List.Basic
import Memberwise.Symbols.Lookup

/-!
# Memberwise.Proofs.CanonicalPath — canonical paths as texts

A canonical path is a text. It can be cut at its double colons again (`NamePath.text_ofText`).

There are few ways to form one, and a property that all of them keep holds of the canonical form of
every path (`Kept.canonical`). For instance, a canonical path starts in one of three ways
(`Rooted.canonical`): with `::`, at the crate root, or with a type of the language.

A path is direct if it is its own canonical form (`canonical_of_direct`). A path through a facade is
not, and neither is one that leads on from a type of the language. Both stand for a path that is
absolute and lighter (`canonical_of_not_direct`), in a measure that adds up over the parts of a
text.
-/

namespace Memberwise

/-! ## Paths and their texts -/

namespace NamePath

/-- The text of a path. -/
def text (p : NamePath) : String :=
  (if p.absolute then "::" else "") ++ "::".intercalate p.segments

/-- The path that a text is cut into. -/
def ofText (text : String) : NamePath :=
  match Text.splitColons text.toList with
  | [] :: piece :: pieces => ⟨true, (piece :: pieces).map String.ofList⟩
  | pieces => ⟨false, pieces.map String.ofList⟩

/-- A character in front of the first piece stands in front of the whole text. -/
theorem intercalate_consPiece (separator : List Char) (c : Char) (pieces : List (List Char))
    (h : pieces ≠ []) :
    separator.intercalate (Text.consPiece c pieces) = c :: separator.intercalate pieces := by
  cases pieces with
  | nil => exact absurd rfl h
  | cons piece pieces =>
    cases pieces with
    | nil => simp [Text.consPiece]
    | cons next pieces => simp [Text.consPiece, List.intercalate]

/-- Every text has a piece. -/
theorem splitColons_ne_nil (cs : List Char) : Text.splitColons cs ≠ [] := by
  fun_cases Text.splitColons cs with
  | case1 cs => simp
  | case2 c cs h =>
    cases Text.splitColons cs <;> simp [Text.consPiece]
  | case3 => simp

/-- The pieces of a text with the colons between them are the text. -/
theorem intercalate_splitColons (cs : List Char) :
    [':', ':'].intercalate (Text.splitColons cs) = cs := by
  fun_induction Text.splitColons cs with
  | case1 cs ih =>
    rcases List.exists_cons_of_ne_nil (splitColons_ne_nil cs) with ⟨piece, pieces, hpieces⟩
    rw [hpieces] at ih ⊢
    rw [← ih]
    simp [List.intercalate]
  | case2 c cs h ih => rw [intercalate_consPiece _ _ _ (splitColons_ne_nil cs), ih]
  | case3 => rfl

/-- Pieces are joined as texts just as they are joined as characters. -/
theorem intercalate_map_ofList (pieces : List (List Char)) :
    "::".intercalate (pieces.map String.ofList) =
      String.ofList ([':', ':'].intercalate pieces) := by
  apply String.toList_injective
  simp [String.toList_intercalate, Function.comp_def]

/-- A path has the text that it was cut from. -/
theorem text_ofText (s : String) : (ofText s).text = s := by
  have hpieces := intercalate_splitColons s.toList
  unfold ofText
  split
  -- An empty first piece is a path that starts with colons.
  · next piece pieces heq =>
    rw [heq] at hpieces
    have hjoin : [':', ':'] ++ [':', ':'].intercalate (piece :: pieces) = s.toList := by
      rw [← hpieces]
      simp [List.intercalate]
    rw [text, intercalate_map_ofList]
    apply String.toList_injective
    simpa using hjoin
  · rw [text, intercalate_map_ofList, hpieces]
    simp

/-- Every path has a segment. -/
theorem segments_ofText_ne_nil (s : String) : (ofText s).segments ≠ [] := by
  unfold ofText
  split
  · simp
  · simpa using splitColons_ne_nil s.toList

/-- A text that starts with a piece is a relative path. -/
theorem ofText_of_cons {s : String} {c : Char} {piece : List Char} {pieces : List (List Char)}
    (h : Text.splitColons s.toList = (c :: piece) :: pieces) :
    ofText s = ⟨false, ((c :: piece) :: pieces).map String.ofList⟩ := by
  rw [ofText, h]

/-- A text that starts with double colons is an absolute path. -/
theorem ofText_of_nil {s : String} {piece : List Char} {pieces : List (List Char)}
    (h : Text.splitColons s.toList = [] :: piece :: pieces) :
    ofText s = ⟨true, (piece :: pieces).map String.ofList⟩ := by
  rw [ofText, h]

/-- A character that is no colon belongs to the first piece. -/
theorem splitColons_cons {c : Char} (h : c ≠ ':') (cs : List Char) :
    Text.splitColons (c :: cs) = Text.consPiece c (Text.splitColons cs) := by
  rw [Text.splitColons]
  intro cs' heq
  exact absurd heq h

/-- A text without colons is one piece. -/
theorem splitColons_of_notMem {cs : List Char} (h : ':' ∉ cs) : Text.splitColons cs = [cs] := by
  induction cs with
  | nil => rfl
  | cons c cs ih =>
    rw [List.mem_cons, not_or] at h
    rw [splitColons_cons (Ne.symm h.1), ih h.2]
    rfl

/-- Double colons end the first piece. -/
theorem splitColons_append {cs : List Char} (h : ':' ∉ cs) (rest : List Char) :
    Text.splitColons (cs ++ ':' :: ':' :: rest) = cs :: Text.splitColons rest := by
  induction cs with
  | nil => rw [List.nil_append, Text.splitColons]
  | cons c cs ih =>
    rw [List.mem_cons, not_or] at h
    rw [List.cons_append, splitColons_cons (Ne.symm h.1), ih h.2]
    rfl

end NamePath

/-! ## Facades -/

/-- A text with a start is this start and what follows it. -/
theorem eq_append_of_dropStart? {start s tail : String} (h : Text.dropStart? start s = some tail) :
    s = start ++ tail := by
  rcases Option.map_eq_some_iff.mp h with ⟨cs, hcs, rfl⟩
  rw [List.isPrefixOf?_eq_some_iff_append_eq] at hcs
  apply String.toList_injective
  rw [← hcs, String.toList_append, String.toList_ofList]

/-- A path is kept, or the start of a facade is replaced. -/
theorem definingPath_cases (path : String) :
    definingPath path = path ∨
      ∃ entry ∈ facades, ∃ tail, path = entry.1 ++ tail ∧ definingPath path = entry.2 ++ tail := by
  unfold definingPath
  generalize hfind : List.findSome? _ facades = found
  cases found with
  | none => exact Or.inl rfl
  | some found =>
    rcases List.exists_of_findSome?_eq_some hfind with ⟨entry, hentry, hdrop⟩
    rcases Option.map_eq_some_iff.mp hdrop with ⟨tail, htail, rfl⟩
    exact Or.inr ⟨entry, hentry, tail, eq_append_of_dropStart? htail, rfl⟩

/-- A facade and what it stands for are absolute. -/
theorem absolute_facades : ∀ entry ∈ facades, ∃ x y, entry.1 = "::" ++ x ∧ entry.2 = "::" ++ y := by
  intro entry hentry
  have hstarts : ∀ entry ∈ facades, (Text.dropStart? "::" entry.1).isSome = true ∧
      (Text.dropStart? "::" entry.2).isSome = true := by decide +kernel
  rcases Option.isSome_iff_exists.mp (hstarts entry hentry).1 with ⟨x, hx⟩
  rcases Option.isSome_iff_exists.mp (hstarts entry hentry).2 with ⟨y, hy⟩
  exact ⟨x, y, eq_append_of_dropStart? hx, eq_append_of_dropStart? hy⟩

/-- The path of the crate that defines an item is absolute too. -/
theorem exists_definingPath (rest : String) :
    ∃ tail, definingPath ("::" ++ rest) = "::" ++ tail := by
  rcases definingPath_cases ("::" ++ rest) with hkeep | ⟨entry, hentry, tail, -, hdefining⟩
  · exact ⟨rest, hkeep⟩
  · rcases absolute_facades entry hentry with ⟨-, y, -, hy⟩
    exact ⟨y ++ tail, by rw [hdefining, hy, String.append_assoc]⟩

/-- Only an absolute path goes through a facade. -/
theorem definingPath_of_head {path : String} (h : path.toList.head? ≠ some ':') :
    definingPath path = path := by
  rcases definingPath_cases path with hkeep | ⟨entry, hentry, tail, rfl, -⟩
  · exact hkeep
  · rcases absolute_facades entry hentry with ⟨x, -, hx, -⟩
    simp [hx] at h

/-! ## What canonical paths have in common -/

/-- What a path that is not absolute starts with. -/
def roots : List String := "crate" :: primitiveTypes

/-- The first words of canonical paths are not empty and have no colons. -/
theorem exists_cons_of_mem_roots {first : String} (h : first ∈ roots) :
    ∃ c cs, first.toList = c :: cs ∧ ':' ∉ c :: cs := by
  have hroots : (roots.all fun first =>
      !first.toList.isEmpty && !first.toList.contains ':') = true := by decide
  have hfirst := List.all_eq_true.mp hroots first h
  cases hcs : first.toList with
  | nil => simp [hcs] at hfirst
  | cons c cs => exact ⟨c, cs, rfl, by simpa [hcs] using hfirst⟩

/-- The path of a module is that of the crate, extended by the names of the modules around it. -/
theorem Scope.path_eq_extend (s : Scope) : s.path = extend "crate" s.inner := by
  rw [Scope.path, Scope.segments, extend]
  cases s.inner with
  | nil => simp
  | cons name inner => simp [String.intercalate_cons_cons]

/-- A name in a module extends the path of the module. -/
theorem Scope.join_eq_extend (s : Scope) (name : String) :
    s.join name = extend s.path [name] := by
  simp [Scope.join, extend]

/-- Whether the names of a path satisfy `N`. Those of an absolute path are never looked up. -/
def NamePath.Over (N : String → Prop) (p : NamePath) : Prop :=
  p.absolute = true ∨ ∀ name ∈ p.segments, N name

/-- Every path is made of some names. -/
theorem NamePath.over_all (p : NamePath) : p.Over fun _ => True := Or.inr fun _ _ => True.intro

/-- A table with modules that satisfy `S` only, which import paths over names that satisfy `N`. -/
structure SymbolTable.Over (N : String → Prop) (S : Scope → Prop) (t : SymbolTable) : Prop where
  scope : ∀ s m, t.module? s = some m → S s
  imports : ∀ s m, t.module? s = some m → ∀ name p, m.import? name = some p → p.Over N

/-- A property of paths that is kept wherever a canonical path is formed: of names that satisfy `N`,
in modules that satisfy `S`. -/
structure Kept (N : String → Prop) (S : Scope → Prop) (Q : String → Prop) : Prop where
  absolute : ∀ rest, Q ("::" ++ rest)
  root : ∀ first ∈ roots, Q first
  scope : ∀ s, S s → Q s.path
  parent : ∀ s outer, S s → s.parent = some outer → S outer
  extend : ∀ path rest, Q path → (∀ name ∈ rest, N name) → Q (extend path rest)

namespace Kept

variable {N : String → Prop} {S : Scope → Prop} {Q : String → Prop} {path : String} {s : Scope}

/-- The path of the crate that defines an item is kept. -/
theorem definingPath (h : Kept N S Q) (hpath : Q path) : Q (definingPath path) := by
  rcases definingPath_cases path with hkeep | ⟨entry, hentry, tail, -, hdefining⟩
  · rwa [hkeep]
  · rcases absolute_facades entry hentry with ⟨-, y, -, hy⟩
    rw [hdefining, hy, String.append_assoc]
    exact h.absolute _

/-- A name in a module is kept. -/
theorem join (h : Kept N S Q) (hs : S s) {name : String} (hname : N name) : Q (s.join name) := by
  rw [Scope.join_eq_extend]
  exact h.extend _ _ (h.scope s hs) (List.forall_mem_singleton.mpr hname)

/-- A path that climbs to the modules around is kept. -/
theorem climb (h : Kept N S Q) (hs : S s) {segments : List String}
    (hsegments : ∀ name ∈ segments, N name) (hclimb : climb s segments = some path) : Q path := by
  induction segments generalizing s with
  | nil =>
    cases hclimb
    exact h.scope s hs
  | cons segment rest ih =>
    rw [Memberwise.climb] at hclimb
    split at hclimb
    · rcases Option.bind_eq_some_iff.mp hclimb with ⟨outer, houter, hrest⟩
      exact ih (h.parent s outer hs houter) (List.forall_mem_cons.mp hsegments).2 hrest
    · cases hclimb
      exact h.extend _ _ (h.scope s hs) hsegments

/-- A name that every module knows is kept. -/
theorem wellKnown? (h : Kept N S Q) {name : String} (hknown : wellKnown? name = some path) :
    Q path := by
  rw [Memberwise.wellKnown?] at hknown
  split at hknown
  -- A primitive is a root itself; a name of the prelude stands for an absolute path.
  · next hprimitive =>
    cases hknown
    exact h.root _ (List.mem_cons_of_mem _ (List.contains_iff_mem.mp hprimitive))
  · have hprelude : ∀ entry ∈ preludeNames, (Text.dropStart? "::" entry.2).isSome = true := by
      decide +kernel
    rcases List.lookup_eq_some_iff.mp hknown with ⟨before, after, heq, -⟩
    have hmem : (name, path) ∈ preludeNames := by simp [heq]
    rcases Option.isSome_iff_exists.mp (hprelude _ hmem) with ⟨x, hx⟩
    have hpath : path = "::" ++ x := eq_append_of_dropStart? hx
    rw [hpath]
    exact h.absolute x

/-- A name that a known module exports is kept. -/
theorem knownExport? (h : Kept N S Q) {module name : String}
    (hknown : knownExport? module name = some path) : Q path := by
  have hmodules : ∀ entry ∈ knownModules, (Text.dropStart? "::" entry.1).isSome = true := by
    decide +kernel
  rcases Option.bind_eq_some_iff.mp hknown with ⟨exports, hexports, hexport⟩
  rcases List.lookup_eq_some_iff.mp hexports with ⟨before, after, heq, -⟩
  have hmem : (module, exports) ∈ knownModules := by simp [heq]
  -- The names of known modules are absolute, hence so are their exports.
  rcases Option.isSome_iff_exists.mp (hmodules _ hmem) with ⟨x, hx⟩
  have hmodule : module = "::" ++ x := eq_append_of_dropStart? hx
  split at hexport
  · cases hexport
    rw [hmodule, String.append_assoc, String.append_assoc]
    exact h.definingPath (h.absolute _)
  · cases hexport

/-- What a path stands for has the property, if what a name stands for has it. -/
theorem canonicalWith (h : Kept N S Q) {find : String → Option String}
    (hfind : ∀ name found, N name → find name = some found → Q found) (hs : S s) {alone : Bool}
    {p : NamePath} (hp : p.Over N) (hpath : canonicalWith find s alone p = some path) :
    Q path := by
  rcases p with ⟨absolute, segments⟩
  rw [Memberwise.canonicalWith] at hpath
  split at hpath
  · cases hpath
  next first rest hsegments =>
  split at hpath
  · cases hpath
    exact h.definingPath (h.absolute _)
  next hrelative =>
  have hnames : ∀ name ∈ first :: rest, N name := by
    rcases hp with habsolute | hnames
    · exact absurd habsolute hrelative
    · intro name hname
      apply hnames
      rw [hsegments]
      exact hname
  have hrest : ∀ name ∈ rest, N name := (List.forall_mem_cons.mp hnames).2
  split at hpath
  · cases hpath
    exact h.definingPath (h.extend _ rest (h.root "crate" (by decide)) hrest)
  split at hpath
  · cases hpath
    exact h.definingPath (h.extend _ rest (h.scope s hs) hrest)
  -- `super` leads to a module around the scope
  split at hpath
  · exact h.climb hs hnames hpath
  split at hpath
  · cases hpath
  split at hpath
  · next found hfound =>
    cases hpath
    have hbase : Q found := hfind first found (hnames first List.mem_cons_self) hfound
    exact h.definingPath (h.extend _ rest hbase hrest)
  -- a name that the module does not know: it is well known, or an external crate
  split at hpath
  · split at hpath
    · next known hknown =>
      cases hpath
      exact h.wellKnown? hknown
    · split at hpath
      · cases hpath
        exact h.definingPath (h.absolute first)
      · cases hpath
  · cases hpath
    exact h.definingPath (h.extend _ rest (h.absolute first) hrest)

/-- What a name of a module stands for has the property. -/
theorem lookup (h : Kept N S Q) {table : SymbolTable} (htable : table.Over N S) {steps : Nat}
    {name : String} (hname : N name) (hlookup : table.lookup steps s name = some path) :
    Q path := by
  -- an import takes one step and a glob two, so the induction reaches back to both
  induction steps using Nat.strongRecOn generalizing s name path with
  | ind steps ih =>
    match steps, ih, hlookup with
    | 0, _, hlookup => cases hlookup
    | 1, _, hlookup =>
      rcases Option.bind_eq_some_iff.mp hlookup with ⟨m, hm, hfound⟩
      split at hfound
      · cases hfound
        exact h.join (htable.scope s m hm) hname
      · cases hfound
    | steps + 2, ih, hlookup =>
      rcases Option.bind_eq_some_iff.mp hlookup with ⟨m, hm, hfound⟩
      split at hfound
      · cases hfound
        exact h.join (htable.scope s m hm) hname
      split at hfound
      · next p himport =>
        exact h.canonicalWith (fun _ _ => ih (steps + 1) (by omega)) (htable.scope s m hm)
          (htable.imports s m hm name p himport) hfound
      split at hfound
      · cases hfound
      · rcases List.exists_of_findSome?_eq_some hfound with ⟨glob, -, hglob⟩
        rcases Option.bind_eq_some_iff.mp hglob with ⟨target, -, htarget⟩
        split at htarget
        · split at htarget
          · exact ih steps (by omega) hname htarget
          · exact h.knownExport? htarget
        · exact h.knownExport? htarget

/-- The canonical form of a path has the property. -/
theorem canonical (h : Kept N S Q) {table : SymbolTable} (htable : table.Over N S) {steps : Nat}
    (hs : S s) {alone : Bool} {p : NamePath} (hp : p.Over N)
    (hpath : table.canonical steps s alone p = some path) : Q path := by
  rw [SymbolTable.canonical] at hpath
  split at hpath
  · cases hpath
  · exact h.canonicalWith (fun _ _ => h.lookup htable) hs hp hpath

end Kept

/-! ## How canonical paths start -/

/-- A path that is absolute, or starts at the crate root or with a type of the language. -/
inductive Rooted : String → Prop
  | absolute (rest : String) : Rooted ("::" ++ rest)
  | root {first : String} (h : first ∈ roots) : Rooted first
  | below {first : String} (h : first ∈ roots) (rest : String) : Rooted (first ++ "::" ++ rest)

namespace Rooted

variable {path : String}

/-- A path that starts at a root still does when it is extended. -/
theorem extend (h : Rooted path) (rest : List String) : Rooted (extend path rest) := by
  rw [Memberwise.extend]
  split
  · exact h
  · cases h with
    | absolute x =>
      rw [String.append_assoc, String.append_assoc]
      exact Rooted.absolute _
    | root hfirst => exact Rooted.below hfirst _
    | below hfirst x =>
      rw [String.append_assoc, String.append_assoc]
      exact Rooted.below hfirst _

/-- All paths are formed of names and modules without a condition. -/
theorem kept : Kept (fun _ => True) (fun _ => True) Rooted where
  absolute rest := .absolute rest
  root first hfirst := .root hfirst
  scope s _ := by
    rw [Scope.path_eq_extend]
    exact (Rooted.root (by decide)).extend _
  parent s outer _ _ := True.intro
  extend path rest hpath _ := hpath.extend rest

/-- The canonical form of a path is rooted. -/
theorem canonical {table : SymbolTable} {steps : Nat} {s : Scope} {alone : Bool} {p : NamePath}
    (h : table.canonical steps s alone p = some path) : Rooted path :=
  kept.canonical ⟨fun _ _ _ => True.intro, fun _ _ _ _ q _ => q.over_all⟩ True.intro
    p.over_all h

/-- A rooted path that is not absolute is cut behind its root. -/
theorem segments_ofText (h : Rooted path) (hrelative : (NamePath.ofText path).absolute = false) :
    ∃ first ∈ roots, ∃ rest, (NamePath.ofText path).segments = first :: rest := by
  cases h with
  | absolute rest =>
    obtain ⟨piece, pieces, hpieces⟩ :=
      List.exists_cons_of_ne_nil (NamePath.splitColons_ne_nil rest.toList)
    -- The text starts with an empty piece, so it is read as an absolute path.
    have hcut : Text.splitColons ("::" ++ rest).toList = [] :: piece :: pieces := by
      rw [String.toList_append, ← hpieces]
      exact NamePath.splitColons_append List.not_mem_nil _
    rw [NamePath.ofText_of_nil hcut] at hrelative
    cases hrelative
  | root hfirst =>
    rcases exists_cons_of_mem_roots hfirst with ⟨c, cs, hcs, hcolon⟩
    -- The bare root has no colon at all and is its own only piece.
    have hcut : Text.splitColons path.toList = [c :: cs] := by
      rw [hcs, NamePath.splitColons_of_notMem hcolon]
    rw [NamePath.ofText_of_cons hcut]
    refine ⟨path, hfirst, [], ?_⟩
    rw [List.map_singleton, ← hcs, String.ofList_toList]
  | @below first hfirst rest =>
    rcases exists_cons_of_mem_roots hfirst with ⟨c, cs, hcs, hcolon⟩
    -- Below a root, the cut at the first `::` gives the root back.
    have hcut : Text.splitColons (first ++ "::" ++ rest).toList =
        (c :: cs) :: Text.splitColons rest.toList := by
      rw [← NamePath.splitColons_append hcolon, ← hcs]
      simp
    rw [NamePath.ofText_of_cons hcut]
    refine ⟨first, hfirst, (Text.splitColons rest.toList).map String.ofList, ?_⟩
    rw [List.map_cons, ← hcs, String.ofList_toList]

end Rooted

/-- A path that is cut as its text is, which is rooted. -/
structure NamePath.IsCanonical (p : NamePath) : Prop where
  ofText : NamePath.ofText p.text = p
  rooted : Rooted p.text

/-- A canonical path has segments. -/
theorem NamePath.IsCanonical.segments_ne_nil {p : NamePath} (h : p.IsCanonical) :
    p.segments ≠ [] := by
  rw [← h.ofText]
  exact NamePath.segments_ofText_ne_nil p.text

/-! ## Paths that stand for themselves -/

/-- A path that is its own canonical form: it is absolute and goes through no facade, or it starts
at the crate root, or it is a type of the language. -/
def NamePath.Direct (p : NamePath) : Prop :=
  (p.absolute = true → definingPath p.text = p.text) ∧
    (p.absolute = false →
      p.segments.head? = some "crate" ∨ ∃ name ∈ primitiveTypes, p.segments = [name])

instance (p : NamePath) : Decidable p.Direct := inferInstanceAs (Decidable (_ ∧ _))

/-- No declaration or import of the scope takes the name of a type of the language. -/
def SymbolTable.KeepsPrimitives (table : SymbolTable) (scope : Scope) : Prop :=
  ∀ name ∈ primitiveTypes, table.lookup maxSteps scope name = none

section

variable {table : SymbolTable} {scope : Scope}

/-- An absolute path is canonical in every scope, but for the crate that defines its item. -/
theorem canonical_absolute {segments : List String} (h : segments ≠ []) :
    table.canonical maxSteps scope false ⟨true, segments⟩ =
      some (definingPath (NamePath.text ⟨true, segments⟩)) := by
  rcases List.exists_cons_of_ne_nil h with ⟨first, rest, rfl⟩
  rfl

/-- A path from `crate` is canonical in every scope. -/
theorem canonical_crate (rest : List String) :
    table.canonical maxSteps scope false ⟨false, "crate" :: rest⟩ =
      some (definingPath (extend "crate" rest)) := rfl

/-- A type of the language stands for itself, but a path that leads on from it does not. -/
theorem canonical_primitive (hkeeps : table.KeepsPrimitives scope) {name : String}
    (hname : name ∈ primitiveTypes) (rest : List String) :
    table.canonical maxSteps scope false ⟨false, name :: rest⟩ =
      some (if rest.isEmpty then name else definingPath (extend ("::" ++ name) rest)) := by
  have hwords : ∀ name ∈ primitiveTypes, name ≠ "crate" ∧ name ≠ "self" ∧ name ≠ "super" ∧
      name ≠ "Self" := by decide
  rcases hwords name hname with ⟨hcrate, hself, hsuper, hSelf⟩
  have hknown : wellKnown? name = some name := by
    rw [wellKnown?, if_pos (List.contains_iff_mem.mpr hname)]
  rw [SymbolTable.canonical, if_neg (by decide), canonicalWith]
  simp only [Bool.false_eq_true, if_false, hcrate, hself, hsuper, hSelf, hkeeps name hname, hknown]
  split <;> rfl

/-- A relative path is its first name, extended by the others. -/
theorem text_cons (first : String) (rest : List String) :
    NamePath.text ⟨false, first :: rest⟩ = extend first rest := by
  cases rest with
  | nil => simp [NamePath.text, extend]
  | cons next rest => simp [NamePath.text, extend, String.intercalate_cons_cons]

/-- A direct path is canonical, and stays as it is. -/
theorem canonical_of_direct (hkeeps : table.KeepsPrimitives scope) {p : NamePath}
    (hp : p.segments ≠ []) (hdirect : p.Direct) :
    table.canonical maxSteps scope false p = some p.text := by
  rcases p with ⟨absolute, segments⟩
  cases absolute with
  | true => rw [canonical_absolute hp, hdirect.1 rfl]
  | false =>
    -- A direct relative path starts with `crate` or is the name of a primitive.
    rcases hdirect.2 rfl with hcrate | ⟨name, hname, hsegments⟩
    · rcases List.head?_eq_some_iff.mp hcrate with ⟨rest, rfl⟩
      have hhead : (extend "crate" rest).toList.head? ≠ some ':' := by
        rw [extend]
        split <;> simp
      rw [canonical_crate, text_cons, definingPath_of_head hhead]
    · cases hsegments
      rw [canonical_primitive hkeeps hname, text_cons]
      rfl

end

/-! ## Weight -/

/-- What a character weighs. A facade is heavier than what it stands for, and colons are lighter
than nothing. -/
def charWeight : Char → Int
  | 'l' => 3
  | '_' => 3
  | 't' => 1
  | ':' => -1
  | _ => 0

/-- What characters weigh together. -/
def charsWeight : List Char → Int
  | [] => 0
  | c :: cs => charWeight c + charsWeight cs

/-- What a text weighs. -/
def weight (text : String) : Int := charsWeight text.toList

/-- The weight of characters is that of their parts together. -/
theorem charsWeight_append (cs ds : List Char) :
    charsWeight (cs ++ ds) = charsWeight cs + charsWeight ds := by
  induction cs with
  | nil => simp [charsWeight]
  | cons c cs ih =>
    rw [List.cons_append, charsWeight, charsWeight, ih]
    omega

/-- The weight of a text is that of its parts together. -/
theorem weight_append (a b : String) : weight (a ++ b) = weight a + weight b := by
  rw [weight, String.toList_append, charsWeight_append, weight, weight]

/-- The path of the crate that defines an item weighs less than that of a facade. -/
theorem weight_facades : ∀ entry ∈ facades, weight entry.2 < weight entry.1 := by
  decide +kernel

/-- Where a facade is replaced, the path gets lighter. -/
theorem weight_definingPath (path : String) :
    definingPath path = path ∨ weight (definingPath path) < weight path := by
  rcases definingPath_cases path with hkeep | ⟨entry, hentry, tail, hpath, hdefining⟩
  · exact Or.inl hkeep
  · right
    rw [hdefining, hpath, weight_append, weight_append]
    have hlighter := weight_facades entry hentry
    omega

/-- No path gets heavier. -/
theorem weight_definingPath_le (path : String) : weight (definingPath path) ≤ weight path := by
  rcases weight_definingPath path with hkeep | hlighter
  · exact Int.le_of_eq (congrArg weight hkeep)
  · omega

/-- A rooted path that is not direct stands for an absolute path, which is lighter. -/
theorem canonical_of_not_direct {table : SymbolTable} {scope : Scope}
    (hkeeps : table.KeepsPrimitives scope) {p : NamePath} (hp : p.IsCanonical)
    (hdirect : ¬p.Direct) {path : String} (h : table.canonical maxSteps scope false p = some path) :
    weight path < weight p.text ∧ ∃ rest, path = "::" ++ rest := by
  rcases p with ⟨absolute, segments⟩
  cases absolute with
  | true =>
    rw [canonical_absolute hp.segments_ne_nil, Option.some.injEq] at h
    subst h
    constructor
    · rcases weight_definingPath (NamePath.text ⟨true, segments⟩) with hkeep | hlighter
      · exact absurd ⟨fun _ => hkeep, nofun⟩ hdirect
      · exact hlighter
    · exact exists_definingPath _
  | false =>
    have hrelative := congrArg NamePath.absolute hp.ofText
    rcases hp.rooted.segments_ofText hrelative with ⟨first, hfirst, rest, hsegments⟩
    rw [hp.ofText] at hsegments
    cases hsegments
    -- at the crate root the path would be direct, and so would a type of the language alone
    rcases List.mem_cons.mp hfirst with rfl | hname
    · exact absurd ⟨nofun, fun _ => Or.inl rfl⟩ hdirect
    have hrest : rest ≠ [] := by
      rintro rfl
      exact hdirect ⟨nofun, fun _ => Or.inr ⟨first, hname, rfl⟩⟩
    -- what leads on from a type of the language is taken for a path into an external crate
    have htext : extend ("::" ++ first) rest = "::" ++ extend first rest := by
      simp [extend, hrest, String.append_assoc]
    rw [canonical_primitive hkeeps hname, if_neg (by simpa using hrest), htext,
      Option.some.injEq] at h
    subst h
    constructor
    · have hcolons : weight "::" = -2 := by decide
      have hle := weight_definingPath_le ("::" ++ extend first rest)
      rw [weight_append] at hle
      rw [text_cons]
      omega
    · exact exists_definingPath _

end Memberwise
