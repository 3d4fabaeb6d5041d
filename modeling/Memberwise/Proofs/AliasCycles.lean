import Mathlib.Logic.Relation
import Memberwise.Proofs.Congruence
import Memberwise.Proofs.Substitution

/-!
# Memberwise.Proofs.AliasCycles — aliases that lead to aliases

An alias leads to another one if its target has a part that is named by it, wherever in the target
the part is resolved (`SymbolTable.LeadsTo`). A type is resolved only if each of its parts is, and
the target of an alias has one step less for it than the alias. So every alias that a resolved type
leads to is unfolded in fewer steps than the one before (`unfolds_of_leadsTo`), and there is no end
to the aliases on a cycle: a type that leads to a cycle is not resolved.

The number of steps bounds chains that end as well. Of `n` aliases, each defined as the next and the
last one as a type of the language, the first takes `n` steps and the type one more
(`resolveIn_chain`).

Both are about files without imports, where no limit has a part in what a path stands for.
-/

namespace Memberwise

open Source

/-! ## Files without imports -/

/-- Whether the item is a `use` or `extern crate`. -/
def Source.Item.isImport : Item → Bool
  | .use .. => true
  | .externCrate .. => true
  | _ => false

/-- No module of the file imports anything. -/
def ImportFree (root : Scope) (items : List Item) : Prop :=
  ∀ b ∈ blocks root items, ∀ item ∈ b.2, item.isImport = false

instance (root : Scope) (items : List Item) : Decidable (ImportFree root items) :=
  inferInstanceAs (Decidable (∀ b ∈ blocks root items, ∀ item ∈ b.2, item.isImport = false))

theorem itemBindings_of_isImport {item : Item} (h : item.isImport = false) :
    itemBindings item = [] := by
  cases item with
  | use absolute tree => cases h
  | externCrate i new => cases h
  | _ => rfl

namespace ImportFree

variable {root s : Scope} {items : List Item}

theorem of_module? (h : ImportFree root items) {m : ModuleSymbols}
    (hm : (SymbolTable.ofItems root items).module? s = some m) :
    (∀ name, m.import? name = none) ∧ m.globs = [] := by
  obtain ⟨block, hblock, rfl⟩ := SymbolTable.mem_modules_ofItems.mp (mem_of_lookupLast hm)
  have hnone : block.flatMap itemBindings = [] :=
    List.flatMap_eq_nil_iff.mpr fun item hitem =>
      itemBindings_of_isImport (h (s, block) hblock item hitem)
  simp [ModuleSymbols.ofItems, ModuleSymbols.import?, lookupLast, hnone]

/-- A look-up finds declarations only, in one step as in many. -/
theorem lookup_eq (h : ImportFree root items) (k l : Nat) (s : Scope) (name : String) :
    (SymbolTable.ofItems root items).lookup (k + 1) s name =
      (SymbolTable.ofItems root items).lookup (l + 1) s name := by
  cases hm : (SymbolTable.ofItems root items).module? s with
  | none => rw [SymbolTable.lookup_of_module?_eq_none hm, SymbolTable.lookup_of_module?_eq_none hm]
  | some m =>
    obtain ⟨himports, hglobs⟩ := h.of_module? hm
    by_cases hdeclares : m.declares name = true
    · rw [SymbolTable.lookup_declared hm hdeclares, SymbolTable.lookup_declared hm hdeclares]
    · have hnot : m.declares name = false := eq_false_of_ne_true hdeclares
      rw [SymbolTable.lookup_unbound hm hnot (himports name) (Or.inl hglobs),
        SymbolTable.lookup_unbound hm hnot (himports name) (Or.inl hglobs)]

/-- A path stands for the same in any number of steps. -/
theorem canonical_eq (h : ImportFree root items) (k : Nat) (s : Scope) (p : NamePath) :
    (SymbolTable.ofItems root items).canonical (k + 1) s false p =
      (SymbolTable.ofItems root items).canonical maxSteps s false p :=
  canonicalWith_congr fun first _ => h.lookup_eq k 32 s first

end ImportFree

/-! ## Cycles -/

namespace SymbolTable

/-- A type that is written in a scope has a part that is named by an alias with the given path, and
not by one of the parameters. -/
def UsesAlias (t : SymbolTable) (scope : Scope) (params : List String) (ty : SourceType)
    (path : String) : Prop :=
  ∃ frames p, plug frames (.path p) = ty ∧ (∀ name ∈ bareName? p, name ∉ params) ∧
    t.canonical maxSteps scope false p.namePath = some path ∧ (t.alias? path).isSome = true

/-- The target of an alias uses another one. -/
def LeadsTo (t : SymbolTable) (path path' : String) : Prop :=
  ∃ a, t.alias? path = some a ∧ t.UsesAlias a.scope a.params a.target path'

/-- The target of an alias is resolved in a number of steps, with some types for the parameters. -/
def Unfolds (t : SymbolTable) (steps : Nat) (path : String) : Prop :=
  ∃ a params r, t.alias? path = some a ∧ (∀ name ∉ a.params, lookupLast name params = none) ∧
    t.resolveIn steps a.scope params a.target = some r

end SymbolTable

theorem Alias.lookupLast_of_bind? {a : Alias} {args : List GenericArg}
    {params : List (String × ResolvedType)} (h : a.bind? args = some params) {name : String}
    (hname : name ∉ a.params) : lookupLast name params = none := by
  obtain rfl := Alias.eq_zip_of_bind? h
  rw [lookupLast, List.lookup_eq_none_iff]
  intro entry hentry
  rw [bne_iff_ne]
  rintro rfl
  exact hname (List.of_mem_zip (List.mem_reverse.mp hentry)).1

section

variable {root scope : Scope} {items : List Item}

/-- An alias that a resolved type uses is unfolded with one step less. -/
theorem unfolds_of_usesAlias (himports : ImportFree root items) {steps : Nat}
    {names : List String} {params : List (String × ResolvedType)}
    (hparams : ∀ name ∉ names, lookupLast name params = none) {ty : SourceType} {path : String}
    (huses : (SymbolTable.ofItems root items).UsesAlias scope names ty path) {r : ResolvedType}
    (h : (SymbolTable.ofItems root items).resolveIn (steps + 1) scope params ty = some r) :
    (SymbolTable.ofItems root items).Unfolds steps path := by
  obtain ⟨frames, p, rfl, hbare, hpath, halias⟩ := huses
  obtain ⟨a, ha⟩ := Option.isSome_iff_exists.mp halias
  -- the part is resolved, since the whole is
  obtain ⟨next, hplug⟩ :=
    (SymbolTable.ofItems root items).exists_resolveIn_plug (steps + 1) scope params frames
  rw [hplug] at h
  obtain ⟨u, hu, -⟩ := Option.bind_eq_some_iff.mp h
  have hparam : ((SymbolTable.ofItems root items).typeContext steps scope params).param? p =
      none := by
    rw [TypeContext.param?]
    cases hname : bareName? p with
    | none => rfl
    | some name => exact hparams name (hbare name hname)
  rw [SymbolTable.resolveIn_succ, resolveType, hparam] at hu
  obtain ⟨path', hpath', hu⟩ := Option.bind_eq_some_iff.mp hu
  obtain ⟨args, -, hu⟩ := Option.bind_eq_some_iff.mp hu
  have hsame : some path' = some path := by
    rw [← hpath', ← hpath, ← himports.canonical_eq steps]
    rfl
  cases hsame
  -- so its alias is expanded
  have hexpand : ((SymbolTable.ofItems root items).typeContext steps scope params).named path args =
      (a.bind? args).bind fun bound =>
        (SymbolTable.ofItems root items).resolveIn steps a.scope bound a.target := by
    simp only [TypeContext.named, SymbolTable.typeContext, ha]
    rfl
  obtain ⟨bound, hbound, htarget⟩ := Option.bind_eq_some_iff.mp (hexpand.symm.trans hu)
  exact ⟨a, bound, u, ha, fun name hname => Alias.lookupLast_of_bind? hbound hname, htarget⟩

/-- An alias that another one leads to is unfolded with one step less. -/
theorem unfolds_of_leadsTo (himports : ImportFree root items) {steps : Nat} {path path' : String}
    (hleads : (SymbolTable.ofItems root items).LeadsTo path path')
    (h : (SymbolTable.ofItems root items).Unfolds steps path) :
    ∃ k, k < steps ∧ (SymbolTable.ofItems root items).Unfolds k path' := by
  obtain ⟨a, params, r, ha, hparams, hr⟩ := h
  obtain ⟨a', ha', huses⟩ := hleads
  obtain rfl : a = a' := Option.some.inj (ha.symm.trans ha')
  cases steps with
  | zero => cases hr
  | succ k => exact ⟨k, Nat.lt_succ_self k, unfolds_of_usesAlias himports hparams huses hr⟩

/-- An alias on a cycle is unfolded in no number of steps. -/
theorem not_unfolds_of_cycle (himports : ImportFree root items) {path : String}
    (hcycle : Relation.TransGen (SymbolTable.ofItems root items).LeadsTo path path) (steps : Nat) :
    ¬(SymbolTable.ofItems root items).Unfolds steps path := by
  induction steps using Nat.strongRecOn generalizing path with
  | ind steps ih =>
    intro h
    -- the next alias on the cycle is on it as well
    obtain ⟨next, hnext, hback⟩ := Relation.TransGen.head'_iff.mp hcycle
    obtain ⟨k, hk, hunfolds⟩ := unfolds_of_leadsTo himports hnext h
    exact ih k hk (Relation.TransGen.tail' hback hnext) hunfolds

/-- An alias that leads to a cycle is unfolded in no number of steps. -/
theorem not_unfolds_of_leads_to_cycle (himports : ImportFree root items) {path path' : String}
    (hleads : Relation.ReflTransGen (SymbolTable.ofItems root items).LeadsTo path path')
    (hcycle : Relation.TransGen (SymbolTable.ofItems root items).LeadsTo path' path')
    (steps : Nat) : ¬(SymbolTable.ofItems root items).Unfolds steps path := by
  induction hleads using Relation.ReflTransGen.head_induction_on generalizing steps with
  | refl => exact not_unfolds_of_cycle himports hcycle steps
  | head hstep _ ih =>
    intro h
    obtain ⟨k, -, hunfolds⟩ := unfolds_of_leadsTo himports hstep h
    exact ih k hunfolds

end

/-! ## Chains -/

/-- Whether the item declares nothing and imports nothing. -/
def Source.Item.isOther : Item → Bool
  | .other => true
  | _ => false

/-- The items `type A = B;` for names and what they are defined as. -/
def aliasItems (links : List (Ident × Ident)) : List Item :=
  links.map fun q => .typeAlias q.1 [] (.ofName q.2)

/-- A module that is a single block of the file declares a chain of aliases and nothing else. Each
of them is defined as the next one, in whatever order they are written, and the last one as a type
of the language. -/
structure AliasChain (root : Scope) (items : List Item) (s : Scope) (links : List (Ident × Ident))
    (last : String) : Prop where
  block : ∃ block, (blocks root items).filter (fun b => b.1 = s) = [(s, block)] ∧
    (block.filter fun item => !item.isOther).Perm (aliasItems links)
  linked : links.map (fun q => q.2.name) = (links.map (fun q => q.1.name) ++ [last]).tail
  distinct : (links.map fun q => q.1.name).Nodup
  notPrimitive : ∀ q ∈ links, q.1.name ∉ primitiveTypes
  identifiers : ∀ q ∈ links, q.1.name ∉ pathWords
  last_mem : last ∈ primitiveTypes

/-- In a list of pairs that differ in a key, a pair is the only one with its key. -/
theorem filter_key_eq {α β : Type} [DecidableEq β] (key : α → β) {xs : List α}
    (h : (xs.map key).Nodup) {x : α} (hx : x ∈ xs) :
    xs.filter (fun y => key y = key x) = [x] := by
  -- Induction on the list: the one element with the key is the head, or the head has another key.
  induction xs with
  | nil => cases hx
  | cons y ys ih =>
    obtain ⟨hy, hys⟩ := List.nodup_cons.mp h
    rcases List.mem_cons.mp hx with rfl | hx
    · have hnone : ys.filter (fun y => key y = key x) = [] := by
        rw [List.filter_eq_nil_iff]
        intro z hz
        have hne : key z ≠ key x := fun heq => hy (heq ▸ List.mem_map_of_mem hz)
        simpa using hne
      rw [List.filter_cons_of_pos (by simp), hnone]
    · have hne : key y ≠ key x := fun heq => hy (heq ▸ List.mem_map_of_mem hx)
      rw [List.filter_cons_of_neg (by simpa using hne), ih hys hx]

namespace AliasChain

variable {root s : Scope} {items : List Item} {links : List (Ident × Ident)} {last : String}

/-- Each alias of a chain is the only one of its name. -/
theorem soleAlias (h : AliasChain root items s links last) {q : Ident × Ident} (hq : q ∈ links) :
    SoleAlias root items s q.1 [] (.ofName q.2) := by
  obtain ⟨block, hblock, hperm⟩ := h.block
  refine ⟨block, hblock, List.perm_singleton.mp ?_⟩
  -- Items other than aliases have no alias name, so filtering them out first changes nothing.
  have hothers : block.filter (fun item => aliasName? item = some q.1.name) =
      (block.filter fun item => !item.isOther).filter
        fun item => aliasName? item = some q.1.name := by
    rw [List.filter_filter]
    refine List.filter_congr fun item _ => ?_
    cases item <;> simp [aliasName?, Item.isOther]
  have hsole : (aliasItems links).filter (fun item => aliasName? item = some q.1.name) =
      [.typeAlias q.1 [] (.ofName q.2)] := by
    have hkey := filter_key_eq (fun q : Ident × Ident => q.1.name) h.distinct hq
    rw [aliasItems, List.filter_map]
    simpa [Function.comp_def, aliasName?] using congrArg
      (List.map fun q : Ident × Ident => Item.typeAlias q.1 [] (.ofName q.2)) hkey
  rw [hothers, ← hsole]
  exact hperm.filter _

/-- Every item of the module has no name or is an alias of the chain. -/
theorem mem_block {block : List Item}
    (hperm : (block.filter fun item => !item.isOther).Perm (aliasItems links)) {item : Item}
    (h : item ∈ block) : item = .other ∨ ∃ q ∈ links, item = .typeAlias q.1 [] (.ofName q.2) := by
  by_cases hother : item.isOther = true
  · cases item <;> simp [Item.isOther] at hother ⊢
  · have hmem : item ∈ aliasItems links :=
      hperm.mem_iff.mp (List.mem_filter.mpr ⟨h, by simpa using hother⟩)
    obtain ⟨q, hq, rfl⟩ := List.mem_map.mp hmem
    exact Or.inr ⟨q, hq, rfl⟩

/-- The module of a chain leaves the types of the language alone. -/
theorem keepsPrimitives (h : AliasChain root items s links last)
    (himports : ImportFree root items) :
    (SymbolTable.ofItems root items).KeepsPrimitives s := by
  intro name hname
  obtain ⟨block, hblock, hperm⟩ := h.block
  have hmodule := module?_of_sole_block hblock
  obtain ⟨hnamed, hglobs⟩ := himports.of_module? hmodule
  -- The block holds aliases and items that declare no type, and no alias is named as a primitive.
  have hdeclares : (ModuleSymbols.ofItems block).declares name = false := by
    rw [ModuleSymbols.declares, Bool.or_eq_false_iff, ← Bool.not_eq_true, ← Bool.not_eq_true,
      List.contains_iff_mem, List.contains_iff_mem]
    constructor
    · intro hmem
      obtain ⟨item, hitem, hdeclared⟩ := List.mem_filterMap.mp hmem
      rcases mem_block hperm hitem with rfl | ⟨q, hq, rfl⟩
      · cases hdeclared
      · exact h.notPrimitive q hq (Option.some.inj hdeclared ▸ hname)
    · intro hmem
      obtain ⟨item, hitem, hmodule⟩ := List.mem_filterMap.mp hmem
      rcases mem_block hperm hitem with rfl | ⟨q, hq, rfl⟩ <;> cases hmodule
  exact SymbolTable.lookup_unbound hmodule hdeclares (hnamed name) (Or.inl hglobs)

end AliasChain

/-- No alias of a file has the path of a type of the language. -/
theorem alias?_primitive {root : Scope} {items : List Item} {name : String}
    (h : name ∈ primitiveTypes) : (SymbolTable.ofItems root items).alias? name = none := by
  have hcolons : ∀ name ∈ primitiveTypes, ':' ∉ name.toList := by decide
  cases halias : (SymbolTable.ofItems root items).alias? name with
  | none => rfl
  | some a =>
    obtain ⟨own, hown⟩ := (SymbolTable.declaredIn_of_alias? halias).path
    refine absurd ?_ (hcolons name h)
    rw [show name = a.scope.join own from hown]
    simp [Scope.join]

section

variable {root s : Scope} {items : List Item}

/-- A single name that stands for no alias is resolved in one step. -/
theorem resolveIn_ofName {t : SymbolTable} {steps : Nat} {i : Ident} {path : String}
    (hpath : t.canonical (steps + 1) s false ⟨false, [i.name]⟩ = some path)
    (halias : t.alias? path = none) :
    t.resolveIn (steps + 1) s [] (.ofName i) = some (.path path [] (kindOf path)) := by
  have hnamed : (t.typeContext steps s []).named path [] = some (.path path [] (kindOf path)) := by
    simp only [TypeContext.named, SymbolTable.typeContext, halias]
  rw [SymbolTable.resolveIn_succ, SourceType.ofName, resolveType_path _ rfl, resolveLast,
    resolveLastOf, resolveArguments]
  show (t.canonical (steps + 1) s false ⟨false, [i.name]⟩).bind _ = _
  rw [hpath, Option.bind_some, Option.bind_some, hnamed]

/-- A single name that stands for an alias without parameters takes a step more than what the alias
is defined as. -/
theorem resolveIn_ofName_alias (hcolons : ∀ b ∈ blocks root items, ColonFree b.2) {i use : Ident}
    {target : SourceType} (hsole : SoleAlias root items s i [] target) (hi : i.name ∉ pathWords)
    (huse : use.name = i.name) (steps : Nat) :
    (SymbolTable.ofItems root items).resolveIn (steps + 1) s [] (.ofName use) =
      (SymbolTable.ofItems root items).resolveIn steps s [] target := by
  have hpath : (SymbolTable.ofItems root items).canonical (steps + 1) s false
      (SourcePath.mk false [.mk use .none]).namePath = some (s.join i.name) := by
    rw [← hsole.canonical hi steps, ← huse]
    rfl
  rw [SourceType.ofName, SymbolTable.resolveIn_alias hpath (hsole.alias? hcolons), resolveLast,
    resolveLastOf, resolveArguments, Option.bind_some]
  rfl

/-- The first of a chain of aliases takes a step for each of them, and one for the type that the
last one is defined as. -/
theorem resolveIn_chain (himports : ImportFree root items)
    (hcolons : ∀ b ∈ blocks root items, ColonFree b.2)
    (hkeeps : (SymbolTable.ofItems root items).KeepsPrimitives s) {last : String}
    (hlast : last ∈ primitiveTypes) {links : List (Ident × Ident)}
    (hsole : ∀ q ∈ links, SoleAlias root items s q.1 [] (.ofName q.2))
    (hwords : ∀ q ∈ links, q.1.name ∉ pathWords)
    (hlinked : links.map (fun q => q.2.name) = (links.map (fun q => q.1.name) ++ [last]).tail)
    {use : Ident} (huse : (links.map (fun q => q.1.name) ++ [last]).head? = some use.name)
    (steps : Nat) :
    (SymbolTable.ofItems root items).resolveIn steps s [] (.ofName use) =
      if links.length < steps then some (.path last [] (kindOf last)) else none := by
  induction links generalizing use steps with
  | nil =>
    obtain rfl : last = use.name := Option.some.inj huse
    cases steps with
    | zero => rfl
    | succ steps =>
      have hpath : (SymbolTable.ofItems root items).canonical (steps + 1) s false
          ⟨false, [use.name]⟩ = some use.name := by
        rw [himports.canonical_eq, canonical_primitive hkeeps hlast []]
        rfl
      rw [resolveIn_ofName hpath (alias?_primitive hlast)]
      simp
  | cons q rest ih =>
    obtain ⟨hq, hrest⟩ := List.forall_mem_cons.mp hsole
    obtain ⟨hword, hwords⟩ := List.forall_mem_cons.mp hwords
    cases steps with
    | zero => rfl
    | succ steps =>
      -- the target of the first alias is the name of the next one
      have hnext : q.2.name :: rest.map (fun q => q.2.name) =
          rest.map (fun q => q.1.name) ++ [last] := hlinked
      have hstep := ih hrest hwords (by rw [← hnext]; rfl) (by rw [← hnext]; rfl) steps
      rw [resolveIn_ofName_alias hcolons hq hword (Option.some.inj huse).symm, hstep]
      simp

/-- In a file without imports, a type that leads to a cycle of aliases is not resolved. The first
alias of a module that is a chain of aliases is resolved exactly if there are at most 32 of them, to
the type at its end. Paths are told from each other by their names, which are identifiers and have
no colon. -/
theorem alias_cycles_and_chains (himports : ImportFree root items) :
    (∀ scope ty path path', (SymbolTable.ofItems root items).UsesAlias scope [] ty path →
      Relation.ReflTransGen (SymbolTable.ofItems root items).LeadsTo path path' →
      Relation.TransGen (SymbolTable.ofItems root items).LeadsTo path' path' →
      (SymbolTable.ofItems root items).resolve scope ty = none) ∧
    ((∀ b ∈ blocks root items, ColonFree b.2) →
      ∀ s links last, AliasChain root items s links last → ∀ use : Ident,
        (links.map fun q => q.1.name).head? = some use.name →
        (SymbolTable.ofItems root items).resolve s (.ofName use) =
          if links.length ≤ 32 then some (.path last [] (kindOf last)) else none) := by
  constructor
  · intro scope ty path path' huses hleads hcycle
    cases h : (SymbolTable.ofItems root items).resolve scope ty with
    | none => rfl
    | some r =>
      have hunfolds := unfolds_of_usesAlias himports (fun _ _ => rfl) huses h
      -- A cycle would have to be unfolded more often than there are steps.
      exact absurd hunfolds (not_unfolds_of_leads_to_cycle himports hleads hcycle 32)
  · intro hcolons s links last hchain use huse
    have hhead : (links.map (fun q => q.1.name) ++ [last]).head? = some use.name := by
      rw [List.head?_append, huse, Option.some_or]
    -- From here on it is one fact about the whole chain, proved by induction on its links.
    rw [SymbolTable.resolve, resolveIn_chain himports hcolons (hchain.keepsPrimitives himports)
      hchain.last_mem (fun q hq => hchain.soleAlias hq) hchain.identifiers hchain.linked hhead]
    simp only [maxSteps, Nat.lt_succ_iff]

end

/-- A name of `n` letters `x`. -/
def longName (n : Nat) : Ident := .plain (String.ofList (List.replicate n 'x'))

/-- The names and targets of a chain of `n` aliases, the last of which is defined as `u8`. Their
names have from `n` letters down to one. -/
def chainLinks : Nat → List (Ident × Ident)
  | 0 => []
  | n + 1 => (longName (n + 1), if n = 0 then .plain "u8" else longName n) :: chainLinks n

/-- The type `&A<u8>`, for the alias `A` of the file. -/
def knotType : SourceType :=
  .reference none false (namedType false ["A"] [namedType false ["u8"] []])

/-- The items `type A<T> = Vec<(T, b::B)>;` and `mod b { type B = Box<dyn Fn(super::A<u8>)>; }`,
which define each other, and the modules `within` and `beyond` with chains of 32 and of 33
aliases. -/
def knotItems : List Item :=
  let byte := namedType false ["u8"] []
  [.typeAlias (.plain "A") [.type (.plain "T")]
     (namedType false ["Vec"]
       [.tuple [namedType false ["T"] [], namedType false ["b", "B"] []] false]),
   .module (.plain "b") (some
     [.typeAlias (.plain "B") []
       (namedType false ["Box"] [.traitObject true [.trait false false []
         (.mk false [.mk (.plain "Fn")
           (.call [namedType false ["super", "A"] [byte]] false none)])] false])]),
   .module (.plain "within") (some (aliasItems (chainLinks 32))),
   .module (.plain "beyond") (some (aliasItems (chainLinks 33)))]

theorem alias_cycles_and_chains_knot :
    let t := SymbolTable.ofItems .root knotItems
    (ImportFree .root knotItems ∧ ∀ b ∈ blocks .root knotItems, ColonFree b.2) ∧
      (t.UsesAlias .root [] knotType "crate::A" ∧ t.LeadsTo "crate::A" "crate::b::B" ∧
        t.LeadsTo "crate::b::B" "crate::A" ∧ t.resolve .root knotType = none) ∧
      (AliasChain .root knotItems ⟨["within"]⟩ (chainLinks 32) "u8" ∧
        t.resolve ⟨["within"]⟩ (.ofName (longName 32)) = some (.path "u8" [] .value)) ∧
      AliasChain .root knotItems ⟨["beyond"]⟩ (chainLinks 33) "u8" ∧
        t.resolve ⟨["beyond"]⟩ (.ofName (longName 33)) = none := by
  intro t
  have himports : ImportFree .root knotItems := by decide +kernel
  have hcolons : ∀ b ∈ blocks .root knotItems, ColonFree b.2 := by decide +kernel
  have huses : t.UsesAlias .root [] knotType "crate::A" :=
    ⟨[.reference none false],
      .mk false [.mk (.plain "A") (.angle false [.type (namedType false ["u8"] [])] false)],
      rfl, by decide, by decide +kernel, by decide +kernel⟩
  -- one alias names the other inside a tuple, and that one names the first inside a trait bound
  have hforth : t.LeadsTo "crate::A" "crate::b::B" :=
    ⟨_, rfl, [.argument ⟨false, [], .plain "Vec"⟩ ⟨false, [], .type, [], false⟩,
        .tuple [namedType false ["T"] []] [] false],
      .mk false [.mk (.plain "b") .none, .mk (.plain "B") .none], rfl, by decide,
      by decide +kernel, by decide +kernel⟩
  have hback : t.LeadsTo "crate::b::B" "crate::A" :=
    ⟨_, rfl, [.argument ⟨false, [], .plain "Box"⟩ ⟨false, [], .type, [], false⟩,
        .bound true [] ⟨false, false, [], ⟨false, [], .plain "Fn"⟩, .input [] [] false none⟩ []
          false],
      .mk false [.mk (.plain "super") .none, .mk (.plain "A") (.angle false
        [.type (namedType false ["u8"] [])] false)], rfl, by decide, by decide +kernel,
      by decide +kernel⟩
  have hitems (n : Nat) : ((aliasItems (chainLinks n)).filter fun item => !item.isOther).Perm
      (aliasItems (chainLinks n)) := by
    rw [List.filter_eq_self.mpr]
    intro item hitem
    obtain ⟨q, -, rfl⟩ := List.mem_map.mp hitem
    rfl
  -- chains on both sides of the bound
  have hwithin : AliasChain .root knotItems ⟨["within"]⟩ (chainLinks 32) "u8" :=
    ⟨⟨_, rfl, hitems 32⟩, by decide +kernel, by decide +kernel, by decide +kernel,
      by decide +kernel, by decide⟩
  have hbeyond : AliasChain .root knotItems ⟨["beyond"]⟩ (chainLinks 33) "u8" :=
    ⟨⟨_, rfl, hitems 33⟩, by decide +kernel, by decide +kernel, by decide +kernel,
      by decide +kernel, by decide⟩
  obtain ⟨hcycles, hchains⟩ := alias_cycles_and_chains himports
  have hcycle := hcycles .root knotType _ _ huses .refl (.tail (.single hforth) hback)
  have hfirst := hchains hcolons _ _ _ hwithin (longName 32) rfl
  have hlong := hchains hcolons _ _ _ hbeyond (longName 33) rfl
  exact ⟨⟨himports, hcolons⟩, ⟨huses, hforth, hback, hcycle⟩, ⟨hwithin, hfirst⟩, hbeyond, hlong⟩

end Memberwise
