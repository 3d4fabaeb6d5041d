import Memberwise.Proofs.LocalImports
import Memberwise.Proofs.Settling
import Memberwise.Proofs.Substitution

/-!
# Memberwise.Proofs.GlobChains — how far globs reach

In a chain of globs each module gets a name from the next one, and the last one declares it
(`GlobChain`). A glob takes two steps: one for its path, one for the module that it leads to. It is
followed only while enough steps are left, so a look-up goes through as many globs as it has pairs
of steps above that limit, and a declaration may stand one glob further (`lookup_globChain`). With
the steps that every look-up starts with, it gets through five globs (`glob_chain_reach`).
-/

namespace Memberwise

open Source

/-- A module of the file gets a name through a number of globs from another one, which declares it
as a type. Each module on the way is a single block, has a path of plain names, imports nothing but
all names of the next one, and declares no type or module of the name. -/
inductive GlobChain (root : Scope) (items : List Item) (name : String) : Nat → Scope → Scope → Prop
  | declared {s : Scope} {block : List Item}
      (hblock : (blocks root items).filter (fun b => b.1 = s) = [(s, block)])
      (hplain : ∀ segment ∈ s.inner, Scope.isPlainName segment.toList = true)
      (hname : name ∈ (ModuleSymbols.ofItems block).types) : GlobChain root items name 0 s s
  | glob {s next last : Scope} {block : List Item} {n : Nat}
      (hblock : (blocks root items).filter (fun b => b.1 = s) = [(s, block)])
      (hplain : ∀ segment ∈ s.inner, Scope.isPlainName segment.toList = true)
      (hglob : block.flatMap itemBindings = [.glob ⟨false, next.segments⟩])
      (hname : (ModuleSymbols.ofItems block).declares name = false)
      (hnext : GlobChain root items name n next last) : GlobChain root items name (n + 1) s last

section

variable {root s first last : Scope} {items block : List Item} {name : String} {n : Nat}

/-- The first module of a chain is a module of the file, and its path is recognised. -/
theorem GlobChain.recognised (h : GlobChain root items name n first last) :
    ((SymbolTable.ofItems root items).module? first).isSome = true ∧
      Scope.parse first.path = some first := by
  cases h with
  | declared hblock hplain _ =>
    rw [module?_of_sole_block hblock]
    exact ⟨rfl, Scope.parse_path_of_plain hplain⟩
  | glob hblock hplain _ _ _ =>
    rw [module?_of_sole_block hblock]
    exact ⟨rfl, Scope.parse_path_of_plain hplain⟩

/-- What a module binds that has one glob and no other import. -/
theorem ModuleSymbols.of_single_glob {glob : NamePath}
    (h : block.flatMap itemBindings = [.glob glob]) (name : String) :
    (ModuleSymbols.ofItems block).import? name = none ∧
      (ModuleSymbols.ofItems block).globs = [glob] := by
  constructor
  · rw [ModuleSymbols.import?, ModuleSymbols.ofItems, h]
    rfl
  · rw [ModuleSymbols.ofItems, h]
    rfl

/-- A look-up at the start of a chain finds the declaration at its end exactly if there are two
steps for each glob besides those that have to be left at the last one. With fewer steps than that
no glob is followed. -/
theorem lookup_globChain (h : GlobChain root items name n first last) {steps : Nat}
    (hsteps : globSteps ≤ steps + 2) :
    (SymbolTable.ofItems root items).lookup steps first name =
      if globSteps + 2 * n ≤ steps + 2 then some (last.join name) else none := by
  induction h generalizing steps with
  | @declared s block hblock hplain hname =>
    obtain ⟨steps, rfl⟩ : ∃ k, steps = k + 1 := ⟨steps - 1, by unfold globSteps at hsteps; omega⟩
    have hdeclares : (ModuleSymbols.ofItems block).declares name = true := by
      rw [ModuleSymbols.declares, List.contains_iff_mem.mpr hname, Bool.true_or]
    rw [SymbolTable.lookup_declared (module?_of_sole_block hblock) hdeclares]
    exact (if_pos hsteps).symm
  | @glob s next last block n hblock hplain hglob hname hnext ih =>
    have hmodule := module?_of_sole_block hblock
    obtain ⟨himport, hglobs⟩ := ModuleSymbols.of_single_glob hglob name
    rcases Nat.lt_or_ge steps globSteps with hfew | hmany
    · rw [SymbolTable.lookup_unbound hmodule hname himport (Or.inr hfew), if_neg (by omega)]
    · -- the glob is followed, with two steps less
      obtain ⟨steps, rfl⟩ : ∃ k, steps = k + 2 := ⟨steps - 2, by unfold globSteps at hmany; omega⟩
      obtain ⟨hsome, hparse⟩ := hnext.recognised
      have hvia := viaGlob_of_parse hparse hsome steps s name
      rw [SymbolTable.lookup_globs hmodule hname himport hmany, hglobs, List.findSome?_singleton]
      refine hvia.trans ((ih hmany).trans (if_congr ?_ rfl rfl))
      omega

/-- A name is found through a chain of globs exactly if there are at most five of them. -/
theorem glob_chain_reach (h : GlobChain root items name n first last) :
    (SymbolTable.ofItems root items).lookup maxSteps first name =
      if n ≤ 5 then some (last.join name) else none := by
  rw [lookup_globChain h (by decide)]
  refine if_congr ?_ rfl rfl
  unfold globSteps maxSteps
  omega

end

/-- The items of a file in which a type gets from `g` to `a` through six globs. -/
def relayItems : List Item :=
  [.module (.plain "a") (some [globOf "b"]),
   .module (.plain "b") (some [globOf "c"]),
   .module (.plain "c") (some [globOf "d"]),
   .module (.plain "d") (some [globOf "e"]),
   .module (.plain "e") (some [globOf "f"]),
   .module (.plain "f") (some [globOf "g"]),
   .module (.plain "g") (some [.declared (.plain "T")])]

theorem glob_chain_reach_relay :
    (GlobChain .root relayItems "T" 5 ⟨["b"]⟩ ⟨["g"]⟩ ∧
        (SymbolTable.ofItems .root relayItems).lookup maxSteps ⟨["b"]⟩ "T" = some "crate::g::T") ∧
      GlobChain .root relayItems "T" 6 ⟨["a"]⟩ ⟨["g"]⟩ ∧
        (SymbolTable.ofItems .root relayItems).lookup maxSteps ⟨["a"]⟩ "T" = none := by
  have hend : GlobChain .root relayItems "T" 0 ⟨["g"]⟩ ⟨["g"]⟩ :=
    .declared rfl (by decide) (by decide)
  have hthree : GlobChain .root relayItems "T" 3 ⟨["d"]⟩ ⟨["g"]⟩ :=
    .glob rfl (by decide) rfl rfl (.glob rfl (by decide) rfl rfl
      (.glob rfl (by decide) rfl rfl hend))
  have hfive : GlobChain .root relayItems "T" 5 ⟨["b"]⟩ ⟨["g"]⟩ :=
    .glob rfl (by decide) rfl rfl (.glob rfl (by decide) rfl rfl hthree)
  -- One module further the glob is not reached within the steps any more.
  have hsix : GlobChain .root relayItems "T" 6 ⟨["a"]⟩ ⟨["g"]⟩ :=
    .glob rfl (by decide) rfl rfl hfive
  exact ⟨⟨hfive, glob_chain_reach hfive⟩, hsix, glob_chain_reach hsix⟩

end Memberwise
