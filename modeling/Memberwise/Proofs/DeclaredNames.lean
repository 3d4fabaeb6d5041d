import Memberwise.Proofs.Identifiers
import Memberwise.Proofs.Origins

/-!
# Memberwise.Proofs.DeclaredNames — structs and modules are named by identifiers of the text

Readers of items go forward, so an item is read from the tokens that the items before it have left.
Names of structs and modules are read by readers that take one identifier (`Yields.name`,
`Yields.identWhere`), and what is in a module is read from the content of a group. By induction on
the depth of the grammar, each identifier that names a struct or a module of a file occurs in its
tokens, and can name something or is the word `try` (`yields_items`); since it occurs in the tokens,
it is a word (`lexical_of_parseFile`).
-/

namespace Memberwise.Source

/-! ## Single identifiers and groups -/

/-- An identifier that is taken comes first. -/
theorem exists_rest_of_ident {c c' : Cursor} {i : Ident} (h : ident c = some (i, c')) :
    ∃ rest, c.rest = .ident i :: rest := by
  rcases c with ⟨_ | ⟨t, rest⟩, taken⟩
  · cases h
  · cases t with
    | ident j =>
      cases h
      exact ⟨rest, rfl⟩
    | _ => cases h

namespace Yields

variable {α : Type} {all : List TokenTree} {p : Reader α} {P : α → Prop}

/-- A reader that takes an identifier where a test holds, and otherwise reads something else. -/
theorem identWhere {test : List TokenTree → Bool} {f : Ident → Reader α} {q : Reader α}
    (hident : ∀ i rest, .ident i ∈ all → test (.ident i :: rest) = true → Yields all (f i) P)
    (hq : Yields all q P) : Yields all (do if ← peek test then ident >>= f else q) P := by
  intro c a c' hc hread
  have hbranch : (if test c.rest then ident >>= f else q) c = some (a, c') := hread
  split at hbranch
  · next htest =>
    rcases Option.bind_eq_some_iff.mp hbranch with ⟨⟨i, middle⟩, hfirst, hsecond⟩
    have hmiddle : middle.rest ⊆ all := List.Subset.trans (Forward.suffix hfirst).subset hc
    obtain ⟨rest, hrest⟩ := exists_rest_of_ident hfirst
    rw [hrest] at htest hc
    exact hident i rest (hc List.mem_cons_self) htest middle a c' hmiddle hsecond
  · exact hq c a c' hc hbranch

theorem anyIdent : Yields all ident fun i => .ident i ∈ all := by
  intro c i c' hc hread
  obtain ⟨rest, hrest⟩ := exists_rest_of_ident hread
  exact hc (hrest ▸ List.mem_cons_self)

theorem name : Yields all name fun i => .ident i ∈ all ∧ i.isName = true := by
  have hname : Yields all (do if ← peek atName then ident >>= Pure.pure else Alternative.failure)
      fun i => .ident i ∈ all ∧ i.isName = true :=
    identWhere (fun i _ hi htest => pure ⟨hi, htest⟩) failure
  simp only [bind_pure] at hname
  exact hname

/-- What is read from the content of a group. -/
theorem group {d : Delimiter} (hp : ∀ body, .group d body ∈ all → Yields body p P) :
    Yields all (group d p) P := by
  intro c a c' hc hread
  unfold Source.group at hread
  split at hread
  · next e body rest hrest =>
    split at hread
    · next hd =>
      split at hread
      · next hinner =>
        cases hread
        subst hd
        rw [hrest] at hc
        -- The tokens of the group stand one level deeper in those of the whole.
        exact hp body (hc List.mem_cons_self) _ _ _ (List.Subset.refl body) hinner
      · cases hread
    · cases hread
  · cases hread

theorem many [Forward p] (hp : Yields all p P) (stop : List TokenTree → Bool) :
    Yields all (many stop p) fun as => ∀ a ∈ as, P a := by
  have hloop : ∀ fuel, Yields all (manyLoop stop p fuel) fun as => ∀ a ∈ as, P a := by
    intro fuel
    induction fuel with
    | zero => exact failure
    | succ fuel ih =>
      refine after fun stops => ite (pure (by simp)) ?_
      refine bind hp fun a ha => bind ih fun as has => pure ?_
      exact List.forall_mem_cons.mpr ⟨ha, has⟩
  exact after fun _ => hloop _

end Yields

/-! ## Items -/

mutual

/-- The identifiers that the full names of structs in an item are made of: those of the structs and
of the modules around them. -/
def Item.nameParts : Item → List Ident
  | .struct s => [s.name]
  | .module i (some items) => i :: namePartsIn items
  | _ => []

/-- The identifiers that the full names of structs in a list of items are made of. -/
def namePartsIn : List Item → List Ident
  | [] => []
  | item :: items => item.nameParts ++ namePartsIn items

end

theorem mem_namePartsIn {i : Ident} {items : List Item} :
    i ∈ namePartsIn items ↔ ∃ item ∈ items, i ∈ item.nameParts := by
  induction items with
  | nil => simp [namePartsIn]
  | cons item items ih => simp [namePartsIn, ih]

/-- The identifier occurs in the tokens, and names a struct or module: it can name something, or is
the word `try`, which the grammar allows for modules. -/
structure Names (all : List TokenTree) (i : Ident) : Prop where
  occurs : OccursIn i all
  isName : i.isName = true ∨ i.isWord "try" = true

/-- The structs in the item and the modules around them are named by identifiers of the tokens. -/
def Item.NamedIn (all : List TokenTree) (item : Item) : Prop := ∀ i ∈ item.nameParts, Names all i

section

variable {all : List TokenTree} (r : Rules)

theorem yields_structAfter [r.Forward] (attrs : List Meta) :
    Yields all (structAfter r attrs) fun s => Names all s.name := by
  refine Yields.after fun _ => Yields.name.bind fun i hi => ?_
  have hnames : Names all i := ⟨.token hi.1, .inl hi.2⟩
  refine Yields.after fun _ => Yields.after fun _ => Yields.after fun ts => ?_
  refine Yields.ite ?_ (Yields.ite ?_ ?_)
  · exact Yields.after fun _ => Yields.after fun _ => Yields.after fun _ => Yields.pure hnames
  · exact Yields.after fun _ => Yields.pure hnames
  · exact Yields.after fun _ => Yields.pure hnames

/-! ### Items by their forms

What holds of all items without names in them holds of most forms of items. Of the others, only a
struct and the content of a module are read for what is in them. -/

variable {P : Item → Prop} (hplain : ∀ item : Item, item.nameParts = [] → P item)

include hplain

theorem yields_nameless {item : Item} (h : item.nameParts = []) : Yields all (pure item) P :=
  Yields.pure (hplain item h)

theorem yields_externCrateAfter : Yields all externCrateAfter P := by
  have hend : ∀ i new, Yields all (do op ";"; return Item.externCrate i new) P :=
    fun i new => Yields.after fun _ => yields_nameless hplain rfl
  refine Yields.after fun _ => Yields.after fun _ => Yields.after fun _ => Yields.ite ?_ ?_
  all_goals
    refine Yields.after fun i => Yields.after fun _ => Yields.ite ?_ ?_
    · exact Yields.after fun _ => Yields.after fun new => hend i new
    · exact Yields.after fun new => hend i new

theorem yields_useAfter [r.UseForward] : Yields all (useAfter r) P := by
  refine Yields.after fun _ => Yields.after fun absolute => Yields.after fun tree =>
    Yields.after fun _ => ?_
  cases tree with
  | none => exact yields_nameless hplain rfl
  | some tree => exact yields_nameless hplain rfl

theorem yields_moduleAfter
    (hinner : ∀ i, Names all i → ∀ body, .group .brace body ∈ all →
      Yields body r.items fun items => P (.module i (some items))) :
    Yields all (moduleAfter r) P := by
  refine Yields.after fun _ => Yields.after fun _ => ?_
  -- What follows the name is the same for `try` and for other names.
  have hafter : ∀ i, Names all i → Yields all (do
      if ← op? ";" then return Item.module i none
      else
        let items ← group .brace do
          innerAttributes r
          r.items
        return Item.module i (some items)) P := by
    intro i hi
    refine Yields.after fun _ => Yields.ite (yields_nameless hplain rfl) ?_
    have hbody : Yields all (group .brace do innerAttributes r; r.items)
        fun items => P (.module i (some items)) :=
      Yields.group fun body hbody => Yields.after fun _ => hinner i hi body hbody
    exact hbody.bind fun items hitems => Yields.pure hitems
  refine Yields.identWhere (fun i _ hi htry => hafter i ⟨.token hi, .inr htry⟩) ?_
  exact Yields.name.bind fun i hi => hafter i ⟨.token hi.1, .inl hi.2⟩

variable [r.Forward] (hmodule : Yields all (moduleAfter r) P)

include hmodule

theorem yields_unsafeItem (visible : Bool) (second : List TokenTree) :
    Yields all (unsafeItem r visible second) P := by
  refine Yields.ite ?_ (Yields.ite ?_ (Yields.ite ?_ (Yields.ite ?_ Yields.failure)))
  · exact Yields.after fun _ => Yields.after fun _ => Yields.after fun i =>
      yields_nameless hplain rfl
  · exact Yields.after fun _ => yields_nameless hplain rfl
  · exact Yields.after fun _ => yields_nameless hplain rfl
  · exact hmodule

/-- What holds of the structs and the modules that are read holds of any item that is read. -/
theorem yields_itemAfter [r.UseForward] {attrs : List Meta}
    (hstruct : Yields all (structAfter r attrs) fun s => P (.struct s)) :
    Yields all (itemAfter r attrs) P := by
  have hdropped : ∀ (p : Reader Unit) [Forward p], Yields all (dropped p) P :=
    fun p _ => Yields.after fun _ => yields_nameless hplain rfl
  have hdeclared : ∀ (p : Reader Ident) [Forward p],
      Yields all (do return Item.declared (← p)) P :=
    fun p _ => Yields.after fun _ => yields_nameless hplain rfl
  -- The branches follow the first word of the item.
  refine Yields.after fun visible => Yields.after fun ts => ?_
  refine Yields.ite (hdropped _) ?_
  refine Yields.ite ?_ ?_
  · exact Yields.ite (yields_externCrateAfter hplain) (Yields.ite Yields.failure (hdropped _))
  refine Yields.ite (yields_useAfter r hplain) ?_
  refine Yields.ite (hdropped _) (Yields.ite (hdropped _) ?_)
  refine Yields.ite (yields_unsafeItem r hplain hmodule _ _) (Yields.ite hmodule ?_)
  refine Yields.ite ?_ ?_
  · refine Yields.after fun e => ?_
    obtain ⟨i, params, target⟩ := e
    cases target with
    | none => exact yields_nameless hplain rfl
    | some target => exact yields_nameless hplain rfl
  refine Yields.ite ?_ ?_
  · exact hstruct.bind fun s hs => Yields.pure hs
  refine Yields.ite (hdeclared _) (Yields.ite (hdeclared _) (Yields.ite (hdeclared _) ?_))
  refine Yields.ite (Yields.after fun _ => hdeclared _) ?_
  refine Yields.ite (hdropped _) (Yields.ite (hdropped _) ?_)
  exact Yields.ite (hdropped _) Yields.failure

end

/-- At every depth of the grammar, the identifiers that name the structs and modules in the content
of a module are among its tokens. -/
theorem yields_items (depth : Nat) (all : List TokenTree) :
    Yields all (rules depth).items fun items => ∀ i ∈ namePartsIn items, Names all i := by
  -- Induction on the depth of the rules; only a module's body goes one level down.
  induction depth generalizing all with
  | zero => exact Yields.failure
  | succ depth ih =>
    -- An item without names has nothing to show.
    have hplain : ∀ item : Item, item.nameParts = [] → item.NamedIn all :=
      fun item h => by simp [Item.NamedIn, h]
    have hmodule : Yields all (moduleAfter (rules depth)) (Item.NamedIn all) := by
      -- The names inside a module stand in the group of its body.
      refine yields_moduleAfter _ hplain fun i hi body hbody c items c' hc hread => ?_
      have hinner : ∀ j ∈ namePartsIn items, Names all j := by
        intro j hj
        obtain ⟨hoccurs, hname⟩ := ih body c items c' hc hread j hj
        exact ⟨.inside hbody hoccurs, hname⟩
      intro j hj
      rw [Item.nameParts] at hj
      exact List.forall_mem_cons.mpr ⟨hi, hinner⟩ j hj
    have hmany : Yields all (itemsRule (rules depth))
        fun items => ∀ item ∈ items, item.NamedIn all := by
      refine Yields.many (Yields.after fun attrs => ?_) _
      refine yields_itemAfter _ hplain hmodule ?_
      intro c s c' hc hread
      simpa [Item.NamedIn, Item.nameParts] using yields_structAfter _ attrs c s c' hc hread
    intro c items c' hc hread i hi
    obtain ⟨item, hitem, hi⟩ := mem_namePartsIn.mp hi
    exact hmany c items c' hc hread item hitem i hi

/-- Structs and modules of a file are named by identifiers that are read from their own texts, and
that can name something or are the word `try`. -/
theorem lexical_of_parseFile {text : String} {items : List Item}
    (h : parseFile text = some items) :
    ∀ i ∈ namePartsIn items, i.Lexical ∧ (i.isName = true ∨ i.isWord "try" = true) := by
  obtain ⟨tokens, hlex, hread⟩ := Option.bind_eq_some_iff.mp h
  have hyields : Yields tokens (do innerAttributes (rulesFor tokens); (rulesFor tokens).items)
      fun items => ∀ i ∈ namePartsIn items, Names tokens i :=
    Yields.after fun _ => yields_items _ tokens
  intro i hi
  obtain ⟨hoccurs, hname⟩ :=
    Yields.readTokens (p := fun r => do innerAttributes r; r.items) hyields hread i hi
  exact ⟨Token.lexical_of_lex hlex i hoccurs, hname⟩

end Memberwise.Source
