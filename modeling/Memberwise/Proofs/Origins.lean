import Memberwise.Proofs.Forward
import Memberwise.Proofs.TypeReading
import Memberwise.Scan

/-!
# Memberwise.Proofs.Origins — where the parts of an attribute come from

Attributes are nested as tokens: the content of a `cfg_attr` is read when it is needed. What is read
there comes from the tokens, since readers only go forward (`Yields`). In particular the content of
an inner attribute is a group among them, and so an inner attribute is smaller than the one around
it (`size_lt_of_mem_conditionalMetas`).
-/

namespace Memberwise.Source

variable {α β : Type}

/-- What the reader gives satisfies `P` if it reads tokens of `all`. -/
def Yields (all : List TokenTree) (p : Reader α) (P : α → Prop) : Prop :=
  ∀ (c : Cursor) (a : α) (c' : Cursor), c.rest ⊆ all → p c = some (a, c') → P a

namespace Yields

variable {all : List TokenTree} {p q : Reader α} {f : α → Reader β} {P Q : α → Prop}
  {R : β → Prop}

theorem trivial (p : Reader α) : Yields all p fun _ => True := fun _ _ _ _ _ => True.intro

theorem pure {a : α} (h : P a) : Yields all (pure a) P := by
  intro c b c' _ hread
  cases hread
  exact h

theorem failure : Yields all (failure : Reader α) P := by
  intro c a c' _ hread
  cases hread

/-- Readers in sequence: the second finds what the first leaves. -/
theorem bind [Forward p] (hp : Yields all p Q) (hf : ∀ a, Q a → Yields all (f a) R) :
    Yields all (p >>= f) R := by
  intro c b c' hc hread
  rcases Option.bind_eq_some_iff.mp hread with ⟨⟨a, middle⟩, hfirst, hsecond⟩
  have hmiddle : middle.rest ⊆ all := List.Subset.trans (Forward.suffix hfirst).subset hc
  exact hf a (hp c a middle hc hfirst) middle b c' hmiddle hsecond

/-- Readers in sequence, the first of which is read for its extent only. -/
theorem after [Forward p] (hf : ∀ a, Yields all (f a) R) : Yields all (p >>= f) R :=
  (trivial p).bind fun a _ => hf a

theorem ite {b : Prop} [Decidable b] (hp : Yields all p P) (hq : Yields all q P) :
    Yields all (if b then p else q) P := by
  split
  · exact hp
  · exact hq

theorem map {g : α → β} (hp : Yields all p fun a => R (g a)) : Yields all (g <$> p) R := by
  intro c b c' hc hread
  rw [map_eq_pure_bind] at hread
  rcases Option.bind_eq_some_iff.mp hread with ⟨⟨a, middle⟩, hfirst, hsecond⟩
  cases hsecond
  exact hp c a _ hc hfirst

theorem ahead : Yields all ahead (· ⊆ all) := by
  intro c ts c' hc hread
  cases hread
  exact hc

/-! ## Lists -/

section

variable [Forward p] (hp : Yields all p P) (stop : List TokenTree → Bool)

include hp

theorem terminatedLoop (separator : String) (fuel : Nat) :
    Yields all (terminatedLoop stop separator p fuel) fun as => ∀ a ∈ as.1, P a := by
  induction fuel with
  | zero => exact failure
  | succ fuel ih =>
    refine after fun stops => ite (pure (by simp)) ?_
    refine bind hp fun a ha => after fun stops => ite (pure (by simpa using ha)) ?_
    refine after fun _ => bind ih fun as has => pure ?_
    exact List.forall_mem_cons.mpr ⟨ha, has⟩

theorem commaList : Yields all (commaList p) fun as => ∀ a ∈ as.1, P a :=
  after fun _ => terminatedLoop hp _ _ _

end

end Yields

/-- What is read from tokens comes from them. -/
theorem Yields.readTokens {p : Rules → Reader α} {P : α → Prop} {tokens : List TokenTree} {a : α}
    (hp : Yields tokens (p (rulesFor tokens)) P) (h : readTokens p tokens = some a) : P a := by
  unfold Source.readTokens Reader.run? at h
  split at h
  · next hread =>
    cases h
    exact hp _ _ _ (List.Subset.refl tokens) hread
  · cases h

/-! ## Attributes -/

variable {all : List TokenTree} (r : Rules) [r.Forward]

/-- The content of the attribute, if it has one, is a group among the tokens. -/
def Meta.From (all : List TokenTree) (attr : Meta) : Prop :=
  ∀ p body, attr = .list p body → ∃ d, TokenTree.group d body ∈ all

theorem yields_metaAfter (p : SourcePath) : Yields all (metaAfter r p) (Meta.From all) := by
  have hpath : Meta.From all (.path p) := nofun
  have hvalue : ∀ value, Meta.From all (.nameValue p value) := fun value => nofun
  refine Yields.ahead.bind fun ts hts => ?_
  split
  · next d body rest =>
    have hgroup : TokenTree.group d body ∈ all := hts List.mem_cons_self
    refine Yields.after fun _ => Yields.pure ?_
    rintro q content ⟨rfl, rfl⟩
    exact ⟨d, hgroup⟩
  · refine Yields.ite (Yields.after fun _ => Yields.after fun _ => ?_) (Yields.pure hpath)
    refine Yields.ite (Yields.after fun _ => ?_) ?_
    all_goals exact Yields.after fun taken => Yields.pure (hvalue taken.2)

theorem yields_metaItem : Yields all (metaItem r) (Meta.From all) := by
  refine Yields.after fun _ => Yields.ite ?_ ?_
  · exact Yields.after fun i => yields_metaAfter r _
  · exact Yields.after fun p => yields_metaAfter r p

/-- The attributes of a list stand among its tokens. -/
theorem from_of_mem_metaList? {tokens : List TokenTree} {metas : List Meta}
    (h : metaList? tokens = some metas) : ∀ attr ∈ metas, attr.From tokens := by
  have hlist : Yields tokens (Prod.fst <$> commaList (metaItem (rulesFor tokens)))
      fun metas => ∀ attr ∈ metas, attr.From tokens := (yields_metaItem _).commaList.map
  exact Yields.readTokens (p := fun r => Prod.fst <$> commaList (metaItem r)) hlist h

end Memberwise.Source

namespace Memberwise

open Source

/-! ## Size -/

theorem size_le_sizeAll {t : TokenTree} {ts : List TokenTree} (h : t ∈ ts) :
    t.size ≤ TokenTree.sizeAll ts := by
  rcases List.append_of_mem h with ⟨before, after, rfl⟩
  rw [sizeAll_append, TokenTree.sizeAll]
  omega

theorem conditionalMetas_from {p : SourcePath} {tokens : List TokenTree} {inner : Meta}
    (h : inner ∈ conditionalMetas (.list p tokens)) : inner.From tokens := by
  have hmem : inner ∈ (metaList? tokens).getD [] := List.mem_of_mem_drop h
  cases hmetas : metaList? tokens with
  | none =>
    rw [hmetas] at hmem
    cases hmem
  | some metas =>
    rw [hmetas] at hmem
    exact from_of_mem_metaList? hmetas inner hmem

/-- An attribute in a `cfg_attr` is smaller than the `cfg_attr`. -/
theorem size_lt_of_mem_conditionalMetas {attr inner : Meta} (h : inner ∈ conditionalMetas attr) :
    inner.size < attr.size := by
  cases attr with
  | path p => cases h
  | nameValue p value => cases h
  | list p tokens =>
    have hfrom : inner.From tokens := conditionalMetas_from h
    have hne : tokens ≠ [] := by
      rintro rfl
      cases h
    -- The paths of the list take one token each; a nested list is a group of the tokens.
    cases inner with
    | path q => exact sizeAll_pos hne
    | nameValue q value => exact sizeAll_pos hne
    | list q body =>
      rcases hfrom q body rfl with ⟨d, hgroup⟩
      have hle : (TokenTree.group d body).size ≤ TokenTree.sizeAll tokens :=
        size_le_sizeAll hgroup
      rw [TokenTree.size] at hle
      simp only [Meta.size]
      omega

end Memberwise
