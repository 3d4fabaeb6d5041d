import Memberwise.Generator
import Memberwise.Proofs.Declarations
import Memberwise.Proofs.Resolution

/-!
# Memberwise.Proofs.Nesting — a module path is as good as a module

The items of a module can stand in a file of their own, which is then scanned under the path of the
module, or in a `mod` block of a file that is scanned under the path around it. The two symbol
tables differ in one entry: the second one also knows the module around the block, which declares
nothing but the block.

That entry is asked for only if a glob leads to it. So without such a glob all look-ups inside the
block agree (`lookup_eq`), hence all resolved types (`resolveIn_eq`), all selected structs
(`scan_eq`), and in the end all descriptions (`describeItems_nested`).
-/

namespace Memberwise

open Source

/-! ## Tables that differ in one module -/

/-- Tables that know the same, except perhaps for the module `hidden`. -/
structure SymbolTable.AgreeBut (hidden : Scope) (t u : SymbolTable) : Prop where
  modules : ∀ s, s ≠ hidden → t.module? s = u.module? s
  aliases : t.aliases = u.aliases
  localTypes : t.localTypes = u.localTypes

/-- No glob of a module leads to the module `target`, however many of the steps of a look-up are
left. -/
def SymbolTable.NoGlobTo (t : SymbolTable) (target : Scope) : Prop :=
  ∀ s m, t.module? s = some m → ∀ glob ∈ m.globs, ∀ steps ≤ maxSteps,
    (t.canonical steps s true glob).bind Scope.parse ≠ some target

/-- It is enough to look at the globs of all entries, also of those that do not count. -/
theorem SymbolTable.noGlobTo_of_entries {t : SymbolTable} {target : Scope}
    (h : ∀ entry ∈ t.modules, ∀ glob ∈ entry.2.globs, ∀ steps ≤ maxSteps,
      (t.canonical steps entry.1 true glob).bind Scope.parse ≠ some target) :
    t.NoGlobTo target := by
  intro s m hm glob hglob steps hsteps
  exact h (s, m) (mem_of_lookupLast hm) glob hglob steps hsteps

section Lookup

variable {hidden : Scope} {t u : SymbolTable}

/-- A glob that does not lead to the hidden module brings in the same, if its target is searched
alike. -/
theorem throughGlob_eq (h : t.AgreeBut hidden u) {canonical : NamePath → Option String}
    {search search' : Scope → Option String} {name : String} {glob : NamePath}
    (hglob : (canonical glob).bind Scope.parse ≠ some hidden)
    (hsearch : ∀ inner, inner ≠ hidden → search inner = search' inner) :
    t.throughGlob canonical search name glob = u.throughGlob canonical search' name glob := by
  unfold SymbolTable.throughGlob
  cases htarget : canonical glob with
  | none => rfl
  | some target =>
    cases hparse : Scope.parse target with
    | none => simp [hparse]
    -- only here the module itself is asked for, and it is not the hidden one
    | some inner =>
      have hne : inner ≠ hidden := by
        intro heq
        apply hglob
        simp [htarget, hparse, heq]
      simp [hparse, h.modules inner hne, hsearch inner hne]

/-- The first result is the same if all results are. -/
theorem findSome?_congr {α β : Type} {f g : α → Option β} {xs : List α}
    (h : ∀ x ∈ xs, f x = g x) : xs.findSome? f = xs.findSome? g := by
  induction xs with
  | nil => rfl
  | cons x xs ih =>
    rw [List.findSome?_cons, List.findSome?_cons, h x (by simp), ih fun y hy => h y (by simp [hy])]

/-- Look-ups agree outside the hidden module. The induction is on the steps, two at a time, since a
glob takes two. -/
theorem lookup_eq (h : t.AgreeBut hidden u) (hglobs : t.NoGlobTo hidden) :
    ∀ (steps : Nat) (s : Scope) (name : String), steps ≤ maxSteps → s ≠ hidden →
      t.lookup steps s name = u.lookup steps s name
  | 0, _, _, _, _ => rfl
  | 1, s, name, _, hs => by
    simp only [SymbolTable.lookup, h.modules s hs]
  | steps + 2, s, name, hsteps, hs => by
    -- imports are followed from the same module
    have hfewer : t.lookup (steps + 1) s = u.lookup (steps + 1) s :=
      funext fun n => lookup_eq h hglobs (steps + 1) s n (by omega) hs
    simp only [SymbolTable.lookup, ← h.modules s hs, ← hfewer]
    cases hm : t.module? s with
    | none => rfl
    | some m =>
      -- a glob moves to another module, where fewer steps are left
      have hthrough : ∀ glob ∈ m.globs,
          t.throughGlob (canonicalWith (t.lookup (steps + 1) s) s true)
              (fun inner => t.lookup steps inner name) name glob =
            u.throughGlob (canonicalWith (t.lookup (steps + 1) s) s true)
              (fun inner => u.lookup steps inner name) name glob := by
        intro glob hmem
        apply throughGlob_eq h
        · simpa [SymbolTable.canonical] using hglobs s m hm glob hmem (steps + 1) (by omega)
        · intro inner hinner
          exact lookup_eq h hglobs steps inner name (by omega) hinner
      simp only [Option.bind_eq_bind, Option.bind_some, findSome?_congr hthrough]

/-- Paths are canonicalized alike in every scope but the hidden one. -/
theorem canonical_eq (h : t.AgreeBut hidden u) (hglobs : t.NoGlobTo hidden) {steps : Nat}
    {s : Scope} (hsteps : steps ≤ maxSteps) (hs : s ≠ hidden) (alone : Bool) (p : NamePath) :
    t.canonical steps s alone p = u.canonical steps s alone p := by
  have hlookup : t.lookup steps s = u.lookup steps s :=
    funext fun n => lookup_eq h hglobs steps s n hsteps hs
  unfold SymbolTable.canonical
  rw [hlookup]

/-- Types that are written outside the hidden module resolve alike, if no alias is declared in
it. -/
theorem resolveIn_eq (h : t.AgreeBut hidden u) (hglobs : t.NoGlobTo hidden)
    (haliases : ∀ path a, t.alias? path = some a → a.scope ≠ hidden) :
    ∀ (steps : Nat) (s : Scope) (params : List (String × ResolvedType)) (ty : SourceType),
      steps ≤ maxSteps → s ≠ hidden → t.resolveIn steps s params ty = u.resolveIn steps s params ty
  | 0, _, _, _, _, _ => rfl
  | steps + 1, s, params, ty, hsteps, hs => by
    have halias : t.alias? = u.alias? := by
      funext path
      unfold SymbolTable.alias?
      rw [h.aliases]
    simp only [SymbolTable.resolveIn]
    apply resolveType_congr
    refine ⟨canonical_eq h hglobs hsteps hs false, rfl, TypeContext.named_congr halias ?_⟩
    -- the target of an alias is resolved where the alias is declared
    intro path a ha args
    refine congrArg (Option.bind (a.bind? args)) (funext fun bound => ?_)
    exact resolveIn_eq h hglobs haliases steps a.scope bound a.target (by omega)
      (haliases path a ha)

end Lookup

/-! ## The tables of a module and of the file around it -/

/-- An entry in front of the others counts only if no other has its key. -/
theorem lookupLast_cons {α β : Type} [BEq α] (key : α) (entry : α × β) (entries : List (α × β)) :
    lookupLast key (entry :: entries) =
      (lookupLast key entries).or (List.lookup key [entry]) := by
  unfold lookupLast
  rw [List.reverse_cons, List.lookup_append]

namespace SymbolTable

/-- An empty table adds nothing at the end. -/
theorem append_empty (t : SymbolTable) : t.append empty = t := by
  simp [append, empty]

/-- The table of a file that holds nothing but a module has one more entry than that of the
module. -/
theorem ofItems_module (root : Scope) (i : Ident) (items : List Item) :
    ofItems root [.module i (some items)] =
      (ofModule root [.module i (some items)]).append (ofItems (root.child i.name) items) := by
  rw [ofItems, ofNestedAll, ofNestedAll, append_empty, ofNested]
  rfl

/-- The items of a file and those of a module with its name differ in the module around alone. -/
theorem agreeBut_ofItems_module (root : Scope) (i : Ident) (items : List Item) :
    AgreeBut root (ofItems (root.child i.name) items) (ofItems root [.module i (some items)]) := by
  rw [ofItems_module]
  refine ⟨fun s hs => ?_, rfl, rfl⟩
  have hother : List.lookup s [(root, ModuleSymbols.ofItems [.module i (some items)])] = none := by
    simp [List.lookup_cons, beq_eq_false_iff_ne.mpr hs]
  show lookupLast s (ofItems (root.child i.name) items).modules =
    lookupLast s ((root, _) :: (ofItems (root.child i.name) items).modules)
  rw [lookupLast_cons, hother, Option.or_none]

end SymbolTable

/-! ## Scanning -/

/-- Meanings that cannot be told apart in the modules that satisfy `P`. -/
structure Semantics.AgreeOn (P : Scope → Prop) (m n : Semantics) : Prop where
  attribute? : ∀ p s, P s → m.attribute? p s = n.attribute? p s
  declaredName? : ∀ i s, P s → m.declaredName? i s = n.declaredName? i s
  type? : ∀ ty s, P s → m.type? ty s = n.type? ty s
  mark : m.mark = n.mark

/-- Settings that select the same structs and describe them alike. -/
structure Config.Alike (c e : Config) : Prop where
  qualifyingAnnotations : c.qualifyingAnnotations = e.qualifyingAnnotations
  unresolvedNullability : c.unresolvedNullability = e.unresolvedNullability

section Scan

variable {m n : Semantics} {root : Scope} {c e : Config}

/-- Settings that are alike accept the same annotations. -/
theorem Config.Alike.qualifies (h : c.Alike e) (path : String) :
    c.qualifies path = e.qualifies path := by
  unfold Config.qualifies
  rw [h.qualifyingAnnotations]

/-- Such models see the same derivations. -/
theorem deriveQualifies_eq (hc : c.Alike e) (h : m.AgreeOn root.Within n) {s : Scope}
    (hs : root.Within s) : deriveQualifies m c s = deriveQualifies n e s := by
  funext p
  simp only [deriveQualifies, lookAttribute, h.attribute? p s hs, hc.qualifies]

/-- Such models see the same annotations, however deep they are nested. -/
theorem metaQualifies_eq (hc : c.Alike e) (h : m.AgreeOn root.Within n) {s : Scope}
    (hs : root.Within s) (depth : Nat) : metaQualifies m c s depth = metaQualifies n e s depth := by
  induction depth with
  | zero => rfl
  | succ depth ih =>
    funext attr
    simp only [metaQualifies, lookAttribute, h.attribute? _ s hs, deriveQualifies_eq hc h hs, ih,
      hc.qualifies]

/-- Such models select the same structs. -/
theorem scanStruct_eq (hc : c.Alike e) (h : m.AgreeOn root.Within n) {s : Scope}
    (hs : root.Within s) (item : StructItem) : scanStruct m c s item = scanStruct n e s item := by
  unfold scanStruct isQualifying
  simp only [metaQualifies_eq hc h hs]

mutual

/-- Such models select the same structs of each item, by induction on the modules. -/
theorem scanItem_eq (hc : c.Alike e) (h : m.AgreeOn root.Within n) {s : Scope}
    (hs : root.Within s) : ∀ item : Item, scanItem m c s item = scanItem n e s item
  -- Only structs and modules with a body are scanned at all.
  | .struct item => by
    simp only [scanItem]
    exact scanStruct_eq hc h hs item
  | .module i (some items) => by
    simp only [scanItem]
    exact scan_eq hc h (hs.child i.name) items
  | .module _ none => by simp only [scanItem]
  | .use .. => by simp only [scanItem]
  | .declared _ => by simp only [scanItem]
  | .typeAlias .. => by simp only [scanItem]
  | .externCrate .. => by simp only [scanItem]
  | .other => by simp only [scanItem]

/-- Inside `root`, meanings that agree there select the same structs and report the same events. -/
theorem scan_eq (hc : c.Alike e) (h : m.AgreeOn root.Within n) {s : Scope} (hs : root.Within s) :
    ∀ items : List Item, scan m c s items = scan n e s items
  | [] => by simp only [scan]
  | item :: items => by
    simp only [scan, scanItem_eq hc h hs item, scan_eq hc h hs items]

end

/-! ## Describing -/

/-- Such models describe fields alike. -/
theorem describeField_eq (hc : c.Alike e) (h : m.AgreeOn root.Within n) {d : Candidate}
    (hd : root.Within d.scope) (f : Field) : describeField m c d f = describeField n e d f := by
  unfold describeField
  simp only [h.mark, h.type? _ _ hd, hc.unresolvedNullability]

/-- Such models describe lists of fields alike. -/
theorem describeFields_eq (hc : c.Alike e) (h : m.AgreeOn root.Within n) {d : Candidate}
    (hd : root.Within d.scope) (fields : List Field) :
    describeFields m c d fields = describeFields n e d fields := by
  induction fields with
  | nil => rfl
  | cons f fs ih => simp only [describeFields, describeField_eq hc h hd, ih]

/-- Such models describe structs alike. -/
theorem describe_eq (hc : c.Alike e) (h : m.AgreeOn root.Within n) {d : Candidate}
    (hd : root.Within d.scope) : describe m c d = describe n e d := by
  unfold describe
  simp only [h.declaredName? _ _ hd, describeFields_eq hc h hd]

/-- Such models describe lists of structs alike. -/
theorem describeAll_eq (hc : c.Alike e) (h : m.AgreeOn root.Within n) {ds : List Candidate}
    (hds : ∀ d ∈ ds, root.Within d.scope) : describeAll m c ds = describeAll n e ds := by
  induction ds with
  | nil => rfl
  | cons d ds ih =>
    simp only [describeAll, describe_eq hc h (hds d (by simp)),
      ih fun e he => hds e (by simp [he])]

end Scan

section Candidates

variable {m : Semantics} (c : Config) {root : Scope}

/-- A struct is selected in the scope that is scanned. -/
theorem scope_scanStruct {s : Scope} {item : StructItem} {d : Candidate}
    (h : d ∈ (scanStruct m c s item).value) : d.scope = s := by
  unfold scanStruct at h
  simp only [Traced.value_bind] at h
  split at h
  · split at h
    · simp only [Traced.value_bind, Traced.value_pure, List.mem_singleton] at h
      rw [h]
    · simp only [Traced.value_bind, Traced.value_pure, List.not_mem_nil] at h
  · simp only [Traced.value_pure, List.not_mem_nil] at h

mutual

/-- What is selected is in the scope that is scanned, or further in. -/
theorem within_scanItem {s : Scope} (hs : root.Within s) :
    ∀ item : Item, ∀ d ∈ (scanItem m c s item).value, root.Within d.scope
  -- A struct is found in the scope it stands in, a module's structs one level deeper.
  | .struct item => by
    intro d hd
    rw [scanItem] at hd
    exact scope_scanStruct c hd ▸ hs
  | .module i (some items) => by
    rw [scanItem]
    exact within_scan (hs.child i.name) items
  | .module _ none => by simp [scanItem]
  | .use .. => by simp [scanItem]
  | .declared _ => by simp [scanItem]
  | .typeAlias .. => by simp [scanItem]
  | .externCrate .. => by simp [scanItem]
  | .other => by simp [scanItem]

/-- Every struct that is selected in a module is declared in it or in a module nested in it. -/
theorem within_scan {s : Scope} (hs : root.Within s) :
    ∀ items : List Item, ∀ d ∈ (scan m c s items).value, root.Within d.scope
  | [] => by simp [scan]
  | item :: items => by
    intro d hd
    simp only [scan, Traced.value_bind, Traced.value_pure, List.mem_append] at hd
    rcases hd with hfirst | hrest
    · exact within_scanItem hs item d hfirst
    · exact within_scan hs items d hrest

end

end Candidates

/-- Scanning a file that holds nothing but a module is scanning the module. -/
theorem scan_module (m : Semantics) (c : Config) (root : Scope) (i : Ident) (items : List Item) :
    scan m c root [.module i (some items)] = scan m c (root.child i.name) items := by
  simp [scan, scanItem]

/-! ## Module paths and nesting -/

/-- Inside a block, the table of its items means the same as that of the file around it. -/
theorem agreeOn_ofItems_module {root : Scope} {i : Ident} {items : List Item}
    (hglobs : (SymbolTable.ofItems (root.child i.name) items).NoGlobTo root) (marks : Bool) :
    (Semantics.ofTable (SymbolTable.ofItems (root.child i.name) items) marks).AgreeOn
      (root.child i.name).Within
      (Semantics.ofTable (SymbolTable.ofItems root [.module i (some items)]) marks) := by
  have hagree := SymbolTable.agreeBut_ofItems_module root i items
  have hlookup := lookup_eq hagree hglobs maxSteps
  have hcanonical := fun s hs => canonical_eq hagree hglobs (s := s) (Nat.le_refl maxSteps) hs false
  -- The wrapped table knows one module more, the root, which no lookup from inside asks.
  refine ⟨fun p s hs => ?_, fun _ s _ => ?_, fun ty s hs => ?_, rfl⟩
  · have hne := hs.ne_of_child
    simp only [Semantics.ofTable, SymbolTable.attribute?, hlookup s _ (Nat.le_refl _) hne,
      hcanonical s hne]
  · simp only [Semantics.ofTable, SymbolTable.declaredName?, SymbolTable.isLocalType,
      hagree.localTypes]
    rfl
  · have haliases : ∀ path a,
        (SymbolTable.ofItems (root.child i.name) items).alias? path = some a → a.scope ≠ root :=
      fun _ _ h => (SymbolTable.declaredIn_of_alias? h).within.ne_of_child
    exact resolveIn_eq hagree hglobs haliases maxSteps s [] ty (Nat.le_refl _) hs.ne_of_child

/-- Describing items under the path of a module gives the same, down to the events on the way, as
describing a file around that module which holds nothing else. Of the settings, only the path of
the file may differ. -/
theorem describeItems_nested (c : Config) (path : String) (root : Scope) (i : Ident)
    (items : List Item)
    (hglobs : (SymbolTable.ofItems (root.child i.name) items).NoGlobTo root) :
    describeItems c (root.child i.name) items =
      describeItems { c with modulePath := path } root [.module i (some items)] := by
  have hagree := agreeOn_ofItems_module hglobs c.nullableAnnotations
  have hroot := Scope.Within.refl (root.child i.name)
  have hc : c.Alike { c with modulePath := path } := ⟨rfl, rfl⟩
  -- the same structs are selected, and all of them lie inside the module
  simp only [describeItems, scan_module, ← scan_eq hc hagree hroot items]
  refine Traced.bind_congr ?_
  exact describeAll_eq hc hagree (within_scan c hroot items)

/-- The items of a module: a struct whose member has a type that comes through a glob. -/
def globbedItems : List Item :=
  [.use false (.path (.plain "self") (.path (.plain "inner") .glob)),
   .module (.plain "inner") (some [.declared (.plain "Tag")]),
   .struct ⟨[.path (.mk true [.mk (.plain "propgroup") .none, .mk (.plain "PropertyMap") .none])],
     .plain "Person", [],
     .named [⟨[], some (.plain "tag"), .path (.mk false [.mk (.plain "Tag") .none])⟩]⟩]

theorem describeItems_nested_globbed :
    (SymbolTable.ofItems (Scope.root.child "models") globbedItems).NoGlobTo Scope.root ∧
      describeItems Config.default (Scope.root.child "models") globbedItems =
        describeItems { Config.default with modulePath := "crate" } Scope.root
          [.module (.plain "models") (some globbedItems)] ∧
      (describeItems Config.default (Scope.root.child "models") globbedItems).value =
        [⟨"Person", "crate::models::Person",
          [⟨"tag", "tag", "crate::models::inner::Tag", true, .nonNullable⟩]⟩] := by
  have hglobs :
      (SymbolTable.ofItems (Scope.root.child "models") globbedItems).NoGlobTo Scope.root :=
    SymbolTable.noGlobTo_of_entries (by decide +kernel)
  exact ⟨hglobs, describeItems_nested _ _ _ (.plain "models") _ hglobs, by decide +kernel⟩

end Memberwise
