import ShaderPreview.Proofs.Pattern.Spares

/-!
# Cutting a text at its occurrences

A search goes through a text from left to right and reports what it finds.  What it should find can
be said without a search: the text is a gap, an occurrence, a gap, an occurrence and so on, and no
occurrence starts inside a gap.  Every text can be cut in this way, and in one way only.

## 1.  Divisions

A `Construct` says which texts are occurrences; it may look at what stands in front of them.  A
`Division` is a text in gaps and occurrences, and `Construct.Cuts cs d` says that `d` is the text
`cs`, cut at the occurrences of the construct.  There is exactly one such division
(`exists_cuts_iff`).  Replacing all occurrences is `Division.render`, and replacing the first one
`Division.settleFirst`.

## 2.  All occurrences

If no occurrence starts inside another one, the places at which the text is cut are the places of all
occurrences: `Cuts.mem_places_iff`.

## 3.  What is put in their place

`Settles C put` says that putting texts in the place of occurrences makes no new ones, neither inside
these texts nor at their two ends.  Then nothing is left to be found: `Settles.absent_render`.

## 4.  Searches

A pattern that `Finds` a construct cuts every text as the construct does, so its values and its
replacements are those of the division.
-/

namespace ShaderPreview

open Text

variable {α : Type}

/-! ## 1.  Divisions -/

/-- A notion of occurrence. -/
structure Construct (α : Type) where
  /-- Behind the text `x`, the text `m` is an occurrence, and its value is `a`. -/
  Is : (x m : List Char) → (a : α) → Prop
  ne_nil : ∀ {x m : List Char} {a : α}, Is x m a → m ≠ []
  /-- At every place there is at most one occurrence. -/
  unique : ∀ {x m m' k k' : List Char} {a a' : α},
    Is x m a → Is x m' a' → m ++ k = m' ++ k' → m = m' ∧ a = a'

/-- A text in pieces: a gap, an occurrence with its value, a gap and so on, up to the last gap. -/
inductive Division (α : Type) where
  | last (gap : List Char)
  | next (gap text : List Char) (value : α) (rest : Division α)

namespace Division

/-- The text that was cut. -/
def text : Division α → List Char
  | last g => g
  | next g m _ d => g ++ (m ++ d.text)

/-- The values of the occurrences, in the order of the text. -/
def values : Division α → List α
  | last _ => []
  | next _ _ a d => a :: d.values

/-- The gaps as they are, and between them what `put` makes of the values. -/
def render (put : α → List Char) : Division α → List Char
  | last g => g
  | next g _ a d => g ++ (put a ++ d.render put)

/-- The occurrences, each with its value and with all the text in front of it. -/
def places : (x : List Char) → Division α → List (List Char × List Char × α)
  | _, last _ => []
  | x, next g m a d => (x ++ g, m, a) :: d.places (x ++ (g ++ m))

/-- The division with a character in front of its first gap. -/
def push (c : Char) : Division α → Division α
  | last g => last (c :: g)
  | next g m a d => next (c :: g) m a d

/-- The division with a text in front of its first gap. -/
def prepend (t : List Char) : Division α → Division α
  | last g => last (t ++ g)
  | next g m a d => next (t ++ g) m a d

/-- The division in which the first occurrence is replaced and belongs to the gaps. -/
def settleFirst (put : α → List Char) : Division α → Division α
  | last g => last g
  | next g _ a d => d.prepend (g ++ put a)

/-- The pieces of the division. -/
def pieces : Division α → List (Piece α)
  | last g => g.map .plain
  | next g m a d => g.map .plain ++ .found m a :: d.pieces

variable {put : α → List Char} {c : Char} {t : List Char} {d : Division α}

theorem text_push : (d.push c).text = c :: d.text := by
  cases d with
  | last g => rfl
  | next g m a d => rfl

theorem render_push : (d.push c).render put = c :: d.render put := by
  cases d with
  | last g => rfl
  | next g m a d => rfl

theorem text_prepend : (d.prepend t).text = t ++ d.text := by
  cases d with
  | last g => rfl
  | next g m a d => exact List.append_assoc ..

theorem flatMap_text_pieces : d.pieces.flatMap Piece.text = d.text := by
  have hplain (g : List Char) : (g.map (Piece.plain (α := α))).flatMap Piece.text = g := by
    induction g with
    | nil => rfl
    | cons c g ih => rw [List.map_cons, List.flatMap_cons, ih]; rfl
  induction d with
  | last g => exact hplain g
  | next g m a d ih =>
    rw [pieces, List.flatMap_append, hplain, List.flatMap_cons, ih, Piece.text_found, text]

theorem flatMap_render_pieces : d.pieces.flatMap (Piece.render put) = d.render put := by
  induction d with
  | last g => exact Piece.flatMap_render_plain put g
  | next g m a d ih =>
    rw [pieces, List.flatMap_append, Piece.flatMap_render_plain, List.flatMap_cons,
      Piece.render_found, ih, render]

theorem renderFirst_pieces :
    Piece.renderFirst put d.pieces = (d.settleFirst put).text := by
  cases d with
  | last g =>
    have h := Piece.renderFirst_plain_append put g []
    rwa [List.append_nil, Piece.renderFirst, List.append_nil] at h
  | next g m a d =>
    rw [pieces, Piece.renderFirst_plain_append, Piece.renderFirst, flatMap_text_pieces, settleFirst,
      text_prepend, List.append_assoc]

theorem filterMap_value?_pieces : d.pieces.filterMap Piece.value? = d.values := by
  have hplain (g : List Char) :
      (g.map Piece.plain).filterMap (Piece.value? : Piece α → Option α) = [] := by
    rw [List.filterMap_map, List.filterMap_eq_nil_iff]
    exact fun c _ => rfl
  induction d with
  | last g => exact hplain g
  | next g m a d ih =>
    rw [pieces, List.filterMap_append, hplain, List.nil_append, List.filterMap_cons, ih]
    rfl

end Division

namespace Construct

/-- No occurrence starts inside the text `g`, which stands between `x` and `k`. -/
def Absent (C : Construct α) (x g k : List Char) : Prop :=
  ∀ u v m a, g = u ++ v → v ≠ [] → m <+: v ++ k → ¬ C.Is (x ++ u) m a

variable {C : Construct α} {x g h k : List Char} {c : Char}

theorem absent_nil : C.Absent x [] k := by
  intro u v m a heq hv
  exact absurd (List.append_eq_nil_iff.1 heq.symm).2 hv

theorem absent_append :
    C.Absent x (g ++ h) k ↔ C.Absent x g (h ++ k) ∧ C.Absent (x ++ g) h k := by
  constructor
  · intro hgh
    refine ⟨fun u v m a heq hv hm => ?_, fun u v m a heq hv hm => ?_⟩
    · refine hgh u (v ++ h) m a (by rw [heq, List.append_assoc]) (by simp [hv]) ?_
      rwa [List.append_assoc]
    · rw [List.append_assoc]
      exact hgh (g ++ u) v m a (by rw [heq, List.append_assoc]) hv hm
  · rintro ⟨hg, hh⟩ u v m a heq hv hm
    rcases List.append_eq_append_iff.1 heq with ⟨u', rfl, rfl⟩ | ⟨v', rfl, rfl⟩
    · rw [← List.append_assoc]
      exact hh u' v m a rfl hv hm
    · cases v' with
      | nil =>
        rw [List.append_nil] at hh
        exact fun his => hh [] h m a rfl hv hm (by rwa [List.append_nil])
      | cons c v' =>
        rw [List.append_assoc] at hm
        exact hg u (c :: v') m a rfl (List.cons_ne_nil _ _) hm

theorem absent_cons :
    C.Absent x (c :: g) k ↔
      (∀ m a, m <+: c :: (g ++ k) → ¬ C.Is x m a) ∧ C.Absent (x ++ [c]) g k := by
  rw [← List.singleton_append, absent_append]
  refine and_congr_left fun _ => ⟨fun hc m a hm his => ?_, fun hc u v m a heq hv hm => ?_⟩
  · exact hc [] [c] m a rfl (List.cons_ne_nil _ _) hm (by rwa [List.append_nil])
  · obtain ⟨rfl, rfl⟩ := (List.append_eq_singleton_iff.1 heq.symm).resolve_right fun h => hv h.2
    rw [List.append_nil]
    exact hc m a hm

/-- No occurrence starts inside a whole text if and only if it has none. -/
theorem absent_iff {cs : List Char} :
    C.Absent [] cs [] ↔ ∀ x m a, C.Is x m a → ¬ x ++ m <+: cs := by
  constructor
  · rintro h x m a his ⟨k, rfl⟩
    refine h x (m ++ k) m a (List.append_assoc ..) (by simp [C.ne_nil his]) ?_ his
    exact ⟨k, (List.append_nil _).symm⟩
  · rintro h u v m a rfl - ⟨k, hk⟩ his
    refine h u m a his ⟨k, ?_⟩
    rw [List.append_nil] at hk
    rw [List.append_assoc, hk]

end Construct

/-- Every occurrence of the division is one behind `x`, and none starts inside a gap. -/
def Division.Leftmost (C : Construct α) : (x : List Char) → Division α → Prop
  | x, last g => C.Absent x g []
  | x, next g m a d =>
    C.Absent x g (m ++ d.text) ∧ C.Is (x ++ g) m a ∧ d.Leftmost C (x ++ (g ++ m))

/-- The division is the text, cut at the occurrences of the construct from left to right. -/
structure Construct.Cuts (C : Construct α) (cs : List Char) (d : Division α) : Prop where
  text_eq : d.text = cs
  leftmost : d.Leftmost C []

section Cuts

variable {C : Construct α} {d d' : Division α} {x cs : List Char}

theorem Division.Leftmost.push {c : Char} (hc : ∀ m a, m <+: c :: d.text → ¬ C.Is x m a)
    (hd : d.Leftmost C (x ++ [c])) : (d.push c).Leftmost C x := by
  cases d with
  | last g => exact Construct.absent_cons.2 ⟨by simpa [text] using hc, hd⟩
  | next g m a d =>
    obtain ⟨hg, hm, hd⟩ := hd
    rw [List.append_assoc] at hm hd
    exact ⟨Construct.absent_cons.2 ⟨hc, hg⟩, hm, hd⟩

/-- The first gap of a division does not reach beyond an occurrence. -/
theorem Construct.Absent.length_le {g h m k k' : List Char} {a : α} (hg : C.Absent x g k)
    (hm : C.Is (x ++ h) m a) (heq : g ++ k = h ++ (m ++ k')) : g.length ≤ h.length := by
  rcases List.append_eq_append_iff.1 heq with ⟨v, rfl, -⟩ | ⟨v, rfl, hv⟩
  · rw [List.length_append]
    exact Nat.le_add_right _ _
  · by_cases hne : v = []
    · exact Nat.le_of_eq (by rw [hne, List.append_nil])
    · exact absurd hm (hg h v m a rfl hne ⟨k', hv⟩)

/-- A text is cut in one way only. -/
theorem Division.Leftmost.eq_of_text_eq (hd : d.Leftmost C x) (hd' : d'.Leftmost C x)
    (htext : d.text = d'.text) : d = d' := by
  induction d generalizing x d' with
  | last g =>
    cases d' with
    | last g' => exact congrArg last htext
    | next g' m' a' d' =>
      -- the gap would have to end in front of the occurrence
      obtain ⟨-, hm', -⟩ := hd'
      have hle := Construct.Absent.length_le hd hm' (by rw [List.append_nil]; exact htext)
      have hlen : g.length = (g' ++ (m' ++ d'.text)).length := congrArg List.length htext
      have hpos := List.length_pos_iff.2 (C.ne_nil hm')
      rw [List.length_append, List.length_append] at hlen
      omega
  | next g m a d ih =>
    obtain ⟨hg, hm, hd⟩ := hd
    cases d' with
    | last g' =>
      have hle := Construct.Absent.length_le hd' hm (by rw [List.append_nil]; exact htext.symm)
      have hlen : (g ++ (m ++ d.text)).length = g'.length := congrArg List.length htext
      have hpos := List.length_pos_iff.2 (C.ne_nil hm)
      rw [List.length_append, List.length_append] at hlen
      omega
    | next g' m' a' d' =>
      obtain ⟨hg', hm', hd'⟩ := hd'
      have hlen := Nat.le_antisymm (hg.length_le hm' htext) (hg'.length_le hm htext.symm)
      obtain ⟨rfl, hrest⟩ := List.append_inj htext hlen
      obtain ⟨rfl, rfl⟩ := C.unique hm hm' hrest
      rw [ih hd hd' (List.append_cancel_left hrest)]

/-- Every text is cut somehow: at the first occurrence, if one starts here, and otherwise behind the
next character. -/
theorem Construct.exists_leftmost (C : Construct α) (x cs : List Char) :
    ∃ d : Division α, d.text = cs ∧ d.Leftmost C x := by
  induction hn : cs.length using Nat.strongRecOn generalizing x cs with
  | ind n ih =>
    by_cases h : ∃ m a, m <+: cs ∧ C.Is x m a
    · obtain ⟨m, a, ⟨rest, rfl⟩, hm⟩ := h
      have hlt : rest.length < n := by
        have hpos := List.length_pos_iff.2 (C.ne_nil hm)
        rw [← hn, List.length_append]
        omega
      obtain ⟨d, rfl, hd⟩ := ih _ hlt (x ++ m) rest rfl
      exact ⟨.next [] m a d, rfl, absent_nil, by rwa [List.append_nil], hd⟩
    · cases cs with
      | nil => exact ⟨.last [], rfl, absent_nil⟩
      | cons c cs =>
        obtain ⟨d, rfl, hd⟩ := ih _ (by rw [← hn]; exact Nat.lt_succ_self _) (x ++ [c]) cs rfl
        refine ⟨d.push c, Division.text_push, hd.push fun m a hm his => h ⟨m, a, hm, his⟩⟩

/-- Every text is cut in exactly one way. -/
theorem Construct.exists_cuts_iff (C : Construct α) (cs : List Char) :
    ∃ d, ∀ d', C.Cuts cs d' ↔ d' = d := by
  obtain ⟨d, htext, hd⟩ := C.exists_leftmost [] cs
  refine ⟨d, fun d' => ⟨fun hd' => ?_, ?_⟩⟩
  · exact hd'.leftmost.eq_of_text_eq hd (hd'.text_eq.trans htext.symm)
  · rintro rfl
    exact ⟨htext, hd⟩

/-- A text without occurrences is one gap. -/
theorem Construct.cuts_last (h : C.Absent [] cs []) : C.Cuts cs (.last cs) :=
  ⟨rfl, h⟩

/-! ## 2.  All occurrences -/

/-- No occurrence starts inside another one. -/
def Construct.Separate (C : Construct α) : Prop :=
  ∀ {x u v k m a b}, C.Is x (u ++ v) a → u ≠ [] → v ≠ [] → m <+: v ++ k → ¬ C.Is (x ++ u) m b

/-- The occurrences start with a sign that they have nowhere else. -/
def Construct.StartsWith (C : Construct α) (c : Char) : Prop :=
  ∀ {x m a}, C.Is x m a → ∃ t, m = c :: t ∧ c ∉ t

/-- A text without the sign has no place for an occurrence to start. -/
theorem Construct.StartsWith.absent {c : Char} {g k : List Char} (hC : C.StartsWith c)
    (hg : c ∉ g) : C.Absent x g k := by
  rintro u v m a rfl hv hm his
  obtain ⟨t, rfl, -⟩ := hC his
  obtain ⟨e, v, rfl⟩ := List.exists_cons_of_ne_nil hv
  obtain ⟨k', hk'⟩ := hm
  obtain ⟨rfl, -⟩ := List.cons.inj hk'
  exact hg (by simp)

theorem Construct.StartsWith.separate {c : Char} (hC : C.StartsWith c) : C.Separate := by
  intro x u v k m a b his hu hv hm
  obtain ⟨t, ht, hct⟩ := hC his
  obtain ⟨e, u, rfl⟩ := List.exists_cons_of_ne_nil hu
  obtain ⟨-, rfl⟩ := List.cons.inj ht
  have hnot : c ∉ v := fun h => hct (List.mem_append_right _ h)
  have habsent : C.Absent (x ++ e :: u) v k := hC.absent hnot
  simpa using habsent [] v m b rfl hv hm

/-- The values of a division are values of occurrences. -/
theorem Division.Leftmost.of_mem_values (hd : d.Leftmost C x) {a : α} (h : a ∈ d.values) :
    ∃ y m, C.Is y m a := by
  induction d generalizing x with
  | last g => exact absurd h List.not_mem_nil
  | next g m b d ih =>
    obtain ⟨-, hm, hd⟩ := hd
    rw [values, List.mem_cons] at h
    rcases h with rfl | h
    · exact ⟨_, m, hm⟩
    · exact ih hd h

theorem Division.Leftmost.of_mem_places (hd : d.Leftmost C x) {y m : List Char} {a : α}
    (h : (y, m, a) ∈ d.places x) : C.Is y m a ∧ y ++ m <+: x ++ d.text := by
  induction d generalizing x with
  | last g => exact absurd h List.not_mem_nil
  | next g t b d ih =>
    obtain ⟨-, ht, hd⟩ := hd
    rw [places, List.mem_cons] at h
    rcases h with heq | h
    · obtain ⟨rfl, rfl, rfl⟩ : y = x ++ g ∧ m = t ∧ a = b := by simpa using heq
      exact ⟨ht, d.text, by rw [text]; simp only [List.append_assoc]⟩
    · obtain ⟨his, hprefix⟩ := ih hd h
      refine ⟨his, ?_⟩
      rw [text]
      simpa only [List.append_assoc] using hprefix

theorem Division.Leftmost.mem_places (hC : C.Separate) (hd : d.Leftmost C x)
    {u m k : List Char} {a : α} (his : C.Is (x ++ u) m a) (htext : d.text = u ++ (m ++ k)) :
    (x ++ u, m, a) ∈ d.places x := by
  induction d generalizing x u with
  | last g =>
    have hne : m ++ k ≠ [] := by simp [C.ne_nil his]
    exact absurd his (hd u (m ++ k) m a htext hne ⟨k, by rw [List.append_nil]⟩)
  | next g t b d ih =>
    obtain ⟨hg, ht, hd⟩ := hd
    rw [places, List.mem_cons]
    -- the occurrence starts behind the gap, and not inside the occurrence behind it
    have hle := hg.length_le his htext
    obtain ⟨u, rfl⟩ : ∃ u', u = g ++ u' := by
      rcases List.append_eq_append_iff.1 htext with ⟨u', hu', -⟩ | ⟨v, rfl, -⟩
      · exact ⟨u', hu'⟩
      · rw [List.length_append] at hle
        exact ⟨[], by simp [List.length_eq_zero_iff.1 (by omega : v.length = 0)]⟩
    rw [text, List.append_assoc, List.append_cancel_left_eq] at htext
    rcases List.append_eq_append_iff.1 htext with ⟨u, rfl, hrest⟩ | ⟨v, rfl, hrest⟩
    · have hmem := ih hd (u := u) (by simpa only [List.append_assoc] using his) hrest
      exact Or.inr (by simpa only [List.append_assoc] using hmem)
    · by_cases hv : v = []
      · rw [hv, List.append_nil] at hd
        rw [hv, List.nil_append] at hrest
        have hmem := ih hd (u := []) (by rwa [List.append_nil]) hrest.symm
        exact Or.inr (by simpa only [hv, List.append_nil] using hmem)
      · rw [← List.append_assoc] at his
        by_cases hu : u = []
        · rw [hu, List.append_nil] at his
          rw [hu, List.nil_append] at ht
          obtain ⟨rfl, rfl⟩ := C.unique his ht hrest
          exact Or.inl (by rw [hu, List.append_nil, List.nil_append])
        · exact absurd his (hC ht hu hv ⟨k, hrest⟩)

/-- The places at which a text is cut are the places of all its occurrences. -/
theorem Construct.Cuts.mem_places_iff (hC : C.Separate) (hd : C.Cuts cs d) {y m : List Char}
    {a : α} : (y, m, a) ∈ d.places [] ↔ C.Is y m a ∧ y ++ m <+: cs := by
  obtain ⟨rfl, hd⟩ := hd
  refine ⟨hd.of_mem_places, ?_⟩
  rintro ⟨his, k, hk⟩
  exact hd.mem_places hC (x := []) his (by rw [← List.append_assoc]; exact hk.symm)

end Cuts

/-! ## 3.  What is put in their place -/

/-- Putting texts in the place of occurrences makes no new ones. -/
structure Construct.Settles (C : Construct α) (put : α → List Char) : Prop where
  /-- An occurrence that starts in front of such a text ends there. -/
  before : ∀ {x m a}, C.Is x m a → ∀ {y v t k b}, v ≠ [] → C.Is y t b → t <+: v ++ (put a ++ k) →
    t <+: v
  /-- No occurrence starts inside such a text. -/
  inside : ∀ {x m a}, C.Is x m a → ∀ y k, C.Absent y (put a) k
  /-- What is an occurrence behind such a text was one before. -/
  behind : ∀ {x m a}, C.Is x m a → ∀ {y u t b}, C.Is (y ++ (put a ++ u)) t b →
    C.Is (x ++ (m ++ u)) t b

section Settles

variable {C : Construct α} {put : α → List Char} {d : Division α} {x y : List Char}

/-- A text that goes on with a sign which `t` has at its front at most does not share it with `t`. -/
theorem prefix_of_prefix_append_cons {t v k : List Char} {c : Char} (hv : v ≠ []) (hc : c ∉ t.tail)
    (h : t <+: v ++ c :: k) : t <+: v := by
  obtain ⟨r, hr⟩ := h
  rcases List.append_eq_append_iff.1 hr with ⟨v', hv', -⟩ | ⟨t', rfl, ht'⟩
  · exact ⟨v', hv'.symm⟩
  · cases t' with
    | nil => exact ⟨[], by simp⟩
    | cons e t' =>
      obtain ⟨rfl, -⟩ := List.cons.inj ht'
      obtain ⟨f, v, rfl⟩ := List.exists_cons_of_ne_nil hv
      exact absurd (by simp) hc

/-- Nothing is left to be found, if what was found in the rest is also found behind `x`. -/
theorem Construct.Settles.absent_render (hs : C.Settles put) (hd : d.Leftmost C x)
    (hxy : ∀ {u t b}, C.Is (y ++ u) t b → C.Is (x ++ u) t b) : C.Absent y (d.render put) [] := by
  induction d generalizing x y with
  | last g => exact fun u v m a heq hv hm his => hd u v m a heq hv hm (hxy his)
  | next g m a d ih =>
    obtain ⟨hg, hm, hd⟩ := hd
    rw [Division.render, absent_append, absent_append]
    refine ⟨fun u v t b heq hv ht his => ?_, hs.inside hm _ _, ?_⟩
    · rw [List.append_assoc] at ht
      have hprefix : t <+: v ++ (m ++ d.text) :=
        (hs.before hm hv his ht).trans (List.prefix_append ..)
      exact hg u v t b heq hv hprefix (hxy his)
    · refine ih hd fun {u t b} his => ?_
      rw [List.append_assoc] at his
      have hbehind := hs.behind hm his
      simpa only [List.append_assoc] using hbehind

end Settles

/-! ## 4.  Searches -/

/-- The pattern finds the occurrences of the construct, whatever stands around them. -/
def Pattern.Finds (p : Pattern α) (C : Construct α) : Prop :=
  ∀ {x m k a}, p.read? (m ++ k) = some (a, k) ↔ C.Is x m a

section Finds

variable {p : Pattern α} {C : Construct α} {put : α → List Char} {d : Division α} {x : List Char}

theorem Pattern.Finds.read?_eq_none (hp : p.Finds C) {g k : List Char} (h : C.Absent x g k) :
    ∀ u v, g = u ++ v → v ≠ [] → p.read? (v ++ k) = none := by
  intro u v heq hv
  rw [Option.eq_none_iff_forall_ne_some]
  rintro ⟨a, rest⟩ hread
  obtain ⟨m, -, hm⟩ := Pattern.exists_append_of_read? hread
  rw [hm] at hread
  exact h u v m a heq hv ⟨rest, hm.symm⟩ (hp.1 hread)

/-- A search cuts the text as the construct does. -/
theorem Pattern.Finds.segments_eq (hp : p.Finds C) (hd : d.Leftmost C x) :
    p.segments d.text = d.pieces := by
  induction d generalizing x with
  | last g =>
    have h := segments_append_of_none (hp.read?_eq_none hd)
    rwa [List.append_nil, segments_nil, List.append_nil] at h
  | next g m a d ih =>
    obtain ⟨hg, hm, hd⟩ := hd
    rw [Division.text, segments_append_of_none (hp.read?_eq_none hg), segments_append (hp.2 hm),
      ih hd, Division.pieces]

theorem Pattern.Finds.values_eq (hp : p.Finds C) (hd : d.Leftmost C x) :
    p.values d.text = d.values := by
  rw [values, hp.segments_eq hd, Division.filterMap_value?_pieces]

end Finds

end ShaderPreview
