import ShaderPreview.Proofs.Pattern.Division

/-!
# Texture calls are replaced where they stand

The pattern for a texture call takes the whole word in front of `.eval`, although only the point
changes.  So one call might hide another: in `a.eval.eval(p)` the word `eval` belongs to the first
point and stands in front of the second.  It does not: what becomes of a point is decided by the
character in front of it and by the text behind it.

* `EvalCall.Applies`: `.eval`, blanks and a parenthesis, right behind a character of a word;
* `EvalCall.flattenCalls_eq_render`: flattening replaces exactly these, each by `_eval(`;
* `EvalCall.settles_application`: no new one comes of it;
* `flattenCalls_replaces_applications`: both together, for every text.
-/

namespace ShaderPreview

open Text

namespace EvalCall

/-! ## Applications -/

/-- Behind the text `x`, which ends in a character of a word, the text `m` is `.eval`, blanks and an
opening parenthesis. -/
def Applies (x m : List Char) : Prop :=
  (∃ c ∈ x.getLast?, isWordChar c = true) ∧
    ∃ b, Within isBlank b ∧ m = ".eval".toList ++ (b ++ ['('])

variable {x m cs : List Char}

theorem Applies.exists_cons (h : Applies x m) : ∃ t, m = '.' :: t ∧ '.' ∉ t ∧ '_' ∉ t := by
  obtain ⟨-, b, hb, rfl⟩ := h
  have hpoint : '.' ∉ b := hb.not_mem (by decide)
  have hline : '_' ∉ b := hb.not_mem (by decide)
  exact ⟨"eval".toList ++ (b ++ ['(']), rfl, by simp [hpoint], by simp [hline]⟩

/-- The places at which a texture is applied like a method. -/
def application : Construct Unit where
  Is x m _ := Applies x m
  ne_nil h := by
    obtain ⟨t, rfl, -⟩ := h.exists_cons
    exact List.cons_ne_nil _ _
  unique := by
    rintro x m m' k k' ⟨⟩ ⟨⟩ ⟨-, b, hb, rfl⟩ ⟨-, b', hb', rfl⟩ heq
    simp only [List.append_assoc, List.append_cancel_left_eq] at heq
    obtain ⟨rfl, -⟩ := run_unique heq hb (stops_cons.2 (by decide)) hb' (stops_cons.2 (by decide))
    exact ⟨rfl, rfl⟩

theorem startsWith_application : application.StartsWith '.' := by
  intro x m a h
  obtain ⟨t, rfl, hpoint, -⟩ := h.exists_cons
  exact ⟨t, rfl, hpoint⟩

/-! ## Where the pattern finds them -/

/-- An application is found from the last character of the word in front of it on. -/
theorem Applies.read?_ne_none (h : Applies x m) (hm : m <+: cs) :
    ∃ c ∈ x.getLast?, isWordChar c = true ∧ pattern.read? (c :: cs) ≠ none := by
  obtain ⟨⟨c, hlast, hc⟩, b, hb, rfl⟩ := h
  obtain ⟨k, rfl⟩ := hm
  have hword : IsWord (String.ofList [c]) :=
    ⟨by simp [← String.toList_eq_nil_iff], by simp [hc]⟩
  have hreads :
      Reads (parts (String.ofList [c])) (c :: (".eval".toList ++ (b ++ ['(']) ++ k)) k := by
    have hlist : (String.ofList [c]).toList = [c] := String.toList_ofList
    refine ⟨".eval".toList ++ (b ++ ['(']) ++ k, by rw [hlist]; rfl, ?_⟩
    exact ⟨b ++ ['('] ++ k, List.append_assoc .., b, ['('] ++ k, hb, List.append_assoc .., k, rfl,
      rfl⟩
  refine ⟨c, hlast, hc, ?_⟩
  rw [spelling.read?_iff.2 ⟨_, ⟨hword, rfl⟩, hreads⟩]
  exact Option.some_ne_none _

/-- What the pattern finds is a word with an application behind it. -/
theorem exists_eq_append_of_read? {texture : String} {rest : List Char}
    (h : pattern.read? (m ++ rest) = some (texture, rest)) :
    IsWord texture ∧
      ∃ b, Within isBlank b ∧ m = texture.toList ++ (".eval".toList ++ (b ++ ['('])) := by
  obtain ⟨_, ⟨hword, rfl⟩, hr⟩ := spelling.read?_iff.1 h
  obtain ⟨m', heq, hr⟩ := reads_iff.1 hr
  rw [List.append_left_inj] at heq
  subst heq
  obtain ⟨_, rfl, _, rfl, b, _, hb, rfl, _, rfl, rfl⟩ := hr
  exact ⟨hword, b, hb, rfl⟩

theorem applies_of_isWord {texture : String} (hword : IsWord texture) {b : List Char}
    (hb : Within isBlank b) : Applies (x ++ texture.toList) (".eval".toList ++ (b ++ ['('])) := by
  refine ⟨⟨texture.toList.getLast hword.toList_ne_nil, ?_, ?_⟩, b, hb, rfl⟩
  · rw [List.getLast?_append, List.getLast?_eq_some_getLast hword.toList_ne_nil, Option.some_or]
    rfl
  · exact hword.within _ (List.getLast_mem _)

/-- Flattening the text behind `x`, if no call starts with the last character of `x`. -/
theorem exists_leftmost_flattenCalls (cs x : List Char)
    (hx : ∀ c ∈ x.getLast?, isWordChar c = true → pattern.read? (c :: cs) = none) :
    ∃ d : Division Unit, d.text = cs ∧ d.Leftmost application x ∧
      flattenCalls cs = d.render fun _ => "_eval(".toList := by
  induction cs using Pattern.occurrence_induction pattern generalizing x with
  | nil => exact ⟨.last [], rfl, Construct.absent_nil, Pattern.replace_nil ..⟩
  | found m texture rest _ hread ih =>
    obtain ⟨hword, b, hb, rfl⟩ := exists_eq_append_of_read? hread
    have hend : (x ++ (texture.toList ++ (".eval".toList ++ (b ++ ['('])))).getLast? = some '(' := by
      simp only [← List.append_assoc, List.getLast?_concat]
    obtain ⟨d, rfl, hd, hrender⟩ := ih (x ++ (texture.toList ++ (".eval".toList ++ (b ++ ['('])))) (by
      rw [hend]
      rintro _ ⟨⟩ hc
      exact absurd hc (by decide))
    refine ⟨.next texture.toList (".eval".toList ++ (b ++ ['('])) () d, ?_, ⟨?_, ?_, hd⟩, ?_⟩
    · simp only [Division.text, List.append_assoc]
    · exact startsWith_application.absent (hword.within.not_mem (by decide))
    · exact applies_of_isWord hword hb
    · rw [Division.render, ← hrender, ← List.append_assoc texture.toList "_eval(".toList]
      exact Pattern.replace_of_read? flat hread
  | plain c cs hread ih =>
    obtain ⟨d, rfl, hd, hrender⟩ := ih (x ++ [c]) (by
      rw [List.getLast?_concat]
      rintro _ ⟨⟩ _
      exact hread)
    refine ⟨d.push c, Division.text_push, hd.push fun m _ hm his => ?_, ?_⟩
    · obtain ⟨e, he, hword, hread⟩ := Applies.read?_ne_none his hm
      exact hread (hx e he hword)
    · rw [Division.render_push, ← hrender]
      exact Pattern.replace_of_read?_eq_none flat hread

/-- Flattening replaces the applications, and nothing else. -/
theorem flattenCalls_eq_render {d : Division Unit} (hd : application.Cuts cs d) :
    flattenCalls cs = d.render fun _ => "_eval(".toList := by
  obtain ⟨d', htext, hd', hrender⟩ := exists_leftmost_flattenCalls cs [] (by simp)
  rw [hrender, hd.leftmost.eq_of_text_eq hd' (hd.text_eq.trans htext.symm)]

/-- No application comes of it. -/
theorem settles_application : application.Settles fun _ => "_eval(".toList where
  before := by
    intro x m a _ y v t k b hv his ht
    obtain ⟨t, rfl, -, hline⟩ := Applies.exists_cons his
    exact prefix_of_prefix_append_cons hv hline ht
  inside := fun _ y k => startsWith_application.absent (by decide)
  behind := by
    rintro x m a - y u t b ⟨⟨c, hlast, hc⟩, ht⟩
    refine ⟨⟨c, ?_, hc⟩, ht⟩
    rcases List.eq_nil_or_concat u with rfl | ⟨u, e, rfl⟩
    · -- behind the parenthesis nothing is applied
      have hparen : "_eval(".toList = "_eval".toList ++ ['('] := by decide
      rw [List.append_nil, hparen, ← List.append_assoc, List.getLast?_concat] at hlast
      obtain rfl := Option.some.inj hlast
      exact absurd hc (by decide)
    · simp only [List.concat_eq_append, ← List.append_assoc, List.getLast?_concat] at hlast ⊢
      exact hlast

end EvalCall

/-- Flattening calls is plain replacement: the text is cut in one way at the places where a texture is
applied, which are all such places, and each of them is replaced.  Afterwards no such place is left,
so flattening once more changes nothing. -/
theorem flattenCalls_replaces_applications (cs : List Char) :
    ∃ d : Division Unit, (∀ d', EvalCall.application.Cuts cs d' ↔ d' = d) ∧
      (∀ x m, (x, m, ()) ∈ d.places [] ↔ EvalCall.Applies x m ∧ x ++ m <+: cs) ∧
      flattenCalls cs = (d.render fun _ => "_eval(".toList) ∧
      (¬ ∃ x m, EvalCall.Applies x m ∧ x ++ m <+: flattenCalls cs) ∧
      flattenCalls (flattenCalls cs) = flattenCalls cs := by
  obtain ⟨d, hcuts⟩ := EvalCall.application.exists_cuts_iff cs
  have hd := (hcuts d).2 rfl
  have hrender := EvalCall.flattenCalls_eq_render hd
  have habsent : EvalCall.application.Absent [] (flattenCalls cs) [] := by
    rw [hrender]
    exact EvalCall.settles_application.absent_render hd.leftmost id
  refine ⟨d, hcuts, fun x m => hd.mem_places_iff EvalCall.startsWith_application.separate, hrender,
    ?_, EvalCall.flattenCalls_eq_render (Construct.cuts_last habsent)⟩
  rintro ⟨x, m, happlies, hprefix⟩
  exact Construct.absent_iff.1 habsent x m () happlies hprefix

-- an application inside the arguments of another one, and a chain of which only the end is applied
example : flattenCalls "a.eval (b.eval\n(p)) + c.eval.eval(p) + .eval(p)".toList =
    "a_eval(b_eval(p)) + c.eval_eval(p) + .eval(p)".toList := by
  decide +kernel

end ShaderPreview
