import Mathlib.Logic.Function.Conjugate
import ShaderPreview.Proofs.Pattern.Spares

/-!
# Replacements that commute

Two constructs are replaced in a text, one after the other.  If the order is to make no difference,
the first replacement must not take away, change or make occurrences of the second construct, and
the other way round.

## 1.  Replacing

A pass replaces all occurrences of its pattern, or only the first one.  `Rewrites` is what both have
in common, so that there is one argument for them.

## 2.  Occurrences that are not disturbed

`Undisturbed p q put` says that no occurrence of `p` overlaps an occurrence of `q`, nor what is put in
its place.  Then replacing `q` makes no occurrence of `p` (`Undisturbed.read?_eq_none`).

## 3.  Commuting

If neither of two patterns is disturbed by the other, the passes commute: `Rewrites.commute`.  The
induction goes through the text as both patterns see it.
-/

namespace ShaderPreview
namespace Pattern

variable {α β : Type} {p : Pattern α} {q : Pattern β}

/-! ## 1.  Replacing -/

/-- The function replaces occurrences of the pattern from left to right. -/
structure Rewrites (p : Pattern α) (put : α → List Char) (f : List Char → List Char) : Prop where
  nil : f [] = []
  plain : ∀ {c : Char} {cs : List Char}, p.read? (c :: cs) = none → f (c :: cs) = c :: f cs
  /-- An occurrence is replaced; behind it the function goes on, or leaves the text as it is. -/
  found : ∃ go, (go = f ∨ go = id) ∧ ∀ {m rest : List Char} {a : α},
    p.read? (m ++ rest) = some (a, rest) → f (m ++ rest) = put a ++ go rest

theorem rewrites_replace (p : Pattern α) (put : α → List Char) : p.Rewrites put (p.replace put) where
  nil := replace_nil p put
  plain := replace_of_read?_eq_none put
  found := ⟨_, Or.inl rfl, replace_of_read? put⟩

theorem rewrites_replaceFirst (p : Pattern α) (put : α → List Char) :
    p.Rewrites put (p.replaceFirst put) where
  nil := replaceFirst_nil
  plain := replaceFirst_cons
  found := ⟨_, Or.inr rfl, replaceFirst_append⟩

variable {put : α → List Char} {put' : β → List Char} {f g : List Char → List Char}

/-- Where no occurrence starts, the text is kept. -/
theorem Rewrites.append_of_none (hf : p.Rewrites put f) {t k : List Char}
    (h : ∀ u v, t = u ++ v → v ≠ [] → p.read? (v ++ k) = none) : f (t ++ k) = t ++ f k := by
  induction t with
  | nil => rfl
  | cons c t ih =>
    have hnone := h [] (c :: t) rfl (List.cons_ne_nil _ _)
    rw [List.cons_append] at hnone ⊢
    rw [hf.plain hnone, ih fun u v heq => h (c :: u) v (by rw [heq, List.cons_append])]
    rfl

/-! ## 2.  Occurrences that are not disturbed -/

/-- Replacing the occurrences of `q` does not disturb those of `p`. -/
structure Undisturbed (p : Pattern α) (q : Pattern β) (put : β → List Char) : Prop where
  /-- No occurrence of `p` starts inside one of `q`. -/
  inside : ∀ {m rest u v : List Char} {b : β} (k : List Char),
    q.read? (m ++ rest) = some (b, rest) → m = u ++ v → v ≠ [] → p.read? (v ++ k) = none
  /-- None starts inside what is put in its place. -/
  inside_put : ∀ {cs rest u v : List Char} {b : β} (k : List Char),
    q.read? cs = some (b, rest) → put b = u ++ v → v ≠ [] → p.read? (v ++ k) = none
  /-- One that starts in front of what is put there ends in front of it. -/
  before_put : ∀ {cs rest x k rest' : List Char} {a : α} {b : β},
    q.read? cs = some (b, rest) → p.read? (x ++ (put b ++ k)) = some (a, rest') →
      put b ++ k <:+ rest'

/-- Where nothing occurs, nothing occurs after an undisturbing replacement. -/
theorem Undisturbed.read?_eq_none (h : p.Undisturbed q put') (s : p.Spelling)
    (hg : q.Rewrites put' g) {x cs : List Char} (hnone : p.read? (x ++ cs) = none) :
    p.read? (x ++ g cs) = none := by
  induction cs using occurrence_induction q generalizing x with
  | nil => rwa [hg.nil]
  | found m b rest _ hread _ =>
    obtain ⟨go, -, hfound⟩ := hg.found
    rw [hfound hread, Option.eq_none_iff_forall_ne_some]
    rintro ⟨a, rest'⟩ hmade
    -- the occurrence ends in front of what was put in, so it was there before
    obtain ⟨y, rfl⟩ := h.before_put hread hmade
    obtain ⟨m', heq, hm'⟩ := s.exists_of_read? hmade
    rw [← List.append_assoc m', List.append_left_inj] at heq
    rw [heq, List.append_assoc, hm'] at hnone
    exact Option.some_ne_none _ hnone
  | plain c cs hread ih =>
    rw [hg.plain hread, List.append_cons]
    rw [List.append_cons] at hnone
    exact ih hnone

/-! ## 3.  Commuting -/

/-- A text is built from its end by putting characters and occurrences of either pattern in front. -/
theorem both_induction (p : Pattern α) (q : Pattern β) {P : List Char → Prop} (cs : List Char)
    (nil : P [])
    (left : ∀ m a rest, p.read? (m ++ rest) = some (a, rest) → P rest → P (m ++ rest))
    (right : ∀ m b rest, q.read? (m ++ rest) = some (b, rest) → P rest → P (m ++ rest))
    (plain : ∀ c cs, p.read? (c :: cs) = none → q.read? (c :: cs) = none → P cs → P (c :: cs)) :
    P cs := by
  induction hn : cs.length using Nat.strongRecOn generalizing cs with
  | ind n ih =>
    subst hn
    cases hp : p.read? cs with
    | some r =>
      obtain ⟨a, rest⟩ := r
      obtain ⟨⟨m, rfl⟩, hlt⟩ := p.proper hp
      exact left m a rest hp (ih _ hlt rest rfl)
    | none =>
      cases hq : q.read? cs with
      | some r =>
        obtain ⟨b, rest⟩ := r
        obtain ⟨⟨m, rfl⟩, hlt⟩ := q.proper hq
        exact right m b rest hq (ih _ hlt rest rfl)
      | none =>
        cases cs with
        | nil => exact nil
        | cons c cs => exact plain c cs hp hq (ih _ (by simp) cs rfl)

/-- Two passes commute on an occurrence if they do so behind it. -/
theorem Rewrites.commute_found (hf : p.Rewrites put f) (hg : q.Rewrites put' g) (s : p.Spelling)
    (h : q.Undisturbed p put) {m rest : List Char} {a : α}
    (hread : p.read? (m ++ rest) = some (a, rest)) (ih : f (g rest) = g (f rest)) :
    f (g (m ++ rest)) = g (f (m ++ rest)) := by
  obtain ⟨go, hgo, hfound⟩ := hf.found
  have hrest : go (g rest) = g (go rest) := by
    rcases hgo with rfl | rfl
    · exact ih
    · rfl
  calc f (g (m ++ rest)) = f (m ++ g rest) := by
        rw [hg.append_of_none fun u v huv hv => h.inside rest hread huv hv]
    _ = put a ++ go (g rest) := hfound (s.read?_append hread _)
    _ = put a ++ g (go rest) := by rw [hrest]
    _ = g (put a ++ go rest) :=
        (hg.append_of_none fun u v huv hv => h.inside_put _ hread huv hv).symm
    _ = g (f (m ++ rest)) := by rw [hfound hread]

/-- Passes over patterns that do not disturb each other commute. -/
theorem Rewrites.commute (hf : p.Rewrites put f) (hg : q.Rewrites put' g) (s : p.Spelling)
    (s' : q.Spelling) (hpq : p.Undisturbed q put') (hqp : q.Undisturbed p put) :
    Function.Commute f g := by
  intro cs
  induction cs using both_induction p q with
  | nil => rw [hg.nil, hf.nil, hg.nil]
  | left m a rest hread ih => exact hf.commute_found hg s hqp hread ih
  | right m b rest hread ih => exact (hg.commute_found hf s' hpq hread ih.symm).symm
  | plain c cs hp hq ih =>
    have hp' : p.read? (c :: g cs) = none := hpq.read?_eq_none s hg (x := [c]) hp
    have hq' : q.read? (c :: f cs) = none := hqp.read?_eq_none s' hf (x := [c]) hq
    rw [hg.plain hq, hf.plain hp', hf.plain hp, hg.plain hq', ih]

end Pattern
end ShaderPreview
