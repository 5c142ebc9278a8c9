import ShaderPreview.Proofs.PassOrder
import ShaderPreview.Proofs.Pattern.Settling

/-!
# The entry function is renamed once

A shader may declare its entry function before it defines it, or have several functions of that name.
Only the first signature is renamed, and the others keep their name until the text is adapted again.
The new name may be any other identifier: it may start or end like the old one, or be a type.  It is
never taken for the old name, because names are compared as whole words.

* `Entry.Signs`: the form of a signature;
* `Entry.name_eq_of_read?`: a signature is the signature of one function only;
* `Entry.lasting`: neither a signature nor a renamed one has another one inside;
* `renameEntry_renames_first`: the first signature is renamed, and by repeating this the first ones.
-/

namespace ShaderPreview

open Text

namespace Entry

variable {name name' : String} {cs rest rest' : List Char} {parameter parameter' : String}

/-- The text is a signature of the function: the type of a colour, the name, and a parameter with the
type of a coordinate in parentheses. -/
def Signs (name : String) (m : List Char) (parameter : String) : Prop :=
  ∃ ps, Forms name parameter ps ∧ Reads ps m []

/-- The signatures of a dialect's entry function. -/
def signatures (d : Dialect) : Construct String :=
  (spelling d.isWord_entryPoint).construct

theorem is_signatures_iff {d : Dialect} {x m : List Char} :
    (signatures d).Is x m parameter ↔ Signs d.entryPoint m parameter :=
  Iff.rfl

/-- Behind the first letter of its type a signature does not open once more. -/
theorem missed_opening {color : String} (hcolor : color ∈ colorTypes) :
    Missed name (String.ofList color.toList.tail) opening where
  within := by
    revert color
    decide
  at_gap {w} _ _ hw _ := by
    have hwords : ∀ color ∈ colorTypes,
        ∀ w ∈ String.ofList color.toList.tail :: "in" :: coordinateTypes,
          ∀ t ∈ colorTypes, ¬ t.toList <:+ w.toList := by
      decide
    exact misses_of_not_suffix (hwords color hcolor w hw)
  at_name _ _ := misses_of_fenced rfl

/-- A signature has one name. -/
theorem name_eq_of_read? (h : read? name cs = some (parameter, rest))
    (h' : read? name' cs = some (parameter', rest')) : name = name' := by
  simp only [read?, Option.bind_eq_bind, Option.bind_eq_some_iff] at h h'
  obtain ⟨⟨_, _⟩, htype, _, hgap, ⟨w, _⟩, hword, -⟩ := h
  obtain ⟨⟨_, _⟩, htype', _, hgap', ⟨w', _⟩, hword', -⟩ := h'
  -- both readers are at the same place when they come to the name
  obtain ⟨rfl, rfl⟩ := Prod.mk.inj (Option.some.inj (htype.symm.trans htype'))
  obtain rfl := Option.some.inj (hgap.symm.trans hgap')
  obtain ⟨hname, htake, -⟩ := Read.word?_eq_some_iff.1 hword
  obtain ⟨hname', htake', -⟩ := Read.word?_eq_some_iff.1 hword'
  rw [← beq_iff_eq.1 hname, ← beq_iff_eq.1 hname']
  exact String.toList_inj.1 (htake.trans htake'.symm)

/-- A signature of another function is none of this one. -/
theorem read?_signature {user : String} (huser : IsWord user) (hne : user ≠ name)
    (hparameter : IsWord parameter) (k : List Char) :
    (pattern name).read? (signature user parameter ++ k) = none := by
  have hforms : Forms user parameter (parts user "vec4" [] "vec2" parameter) :=
    ⟨_, by decide, _, List.mem_cons_self .., _, by decide, hparameter, rfl⟩
  rw [Option.eq_none_iff_forall_ne_some]
  rintro ⟨parameter', rest⟩ hread
  exact hne (name_eq_of_read? (read?_of_forms huser hforms ((reads_signature user parameter).append k))
    hread)

theorem lasting (d : Dialect) :
    (pattern d.entryPoint).Lasting (signature d.userEntry) opening where
  begins := beginsWith d.isWord_entryPoint
  puts := putsWith d.isWord_userEntry
  tail h := by
    obtain ⟨_, ⟨color, hcolor, qualifier, hq, coordinate, hc, hparameter, rfl⟩, hr⟩ :=
      forms_of_read? h
    exact ⟨_, outside_parts (missed_opening hcolor) d.isWord_entryPoint hq hc hparameter,
      hr.tail (isWord_of_mem_types (Or.inl hcolor))⟩
  tail_put h := by
    obtain ⟨_, ⟨_, -, _, -, _, -, hparameter, -⟩, -⟩ := forms_of_read? h
    have hcolor : "vec4" ∈ colorTypes := by decide
    exact ⟨_, outside_parts (missed_opening hcolor) d.isWord_userEntry (List.mem_cons_self ..)
      (by decide) hparameter, (reads_signature _ _).tail (isWord_of_mem_types (Or.inl hcolor))⟩
  read?_put k h := by
    obtain ⟨_, ⟨_, -, _, -, _, -, hparameter, -⟩, -⟩ := forms_of_read? h
    exact read?_signature d.isWord_userEntry d.userEntry_ne hparameter k

theorem finds_signatures (d : Dialect) : (pattern d.entryPoint).Finds (signatures d) :=
  (spelling d.isWord_entryPoint).finds

theorem anywhere_signatures (d : Dialect) : (signatures d).Anywhere :=
  (spelling d.isWord_entryPoint).anywhere

theorem separate_signatures (d : Dialect) : (signatures d).Separate :=
  (lasting d).separate _

theorem settles_signatures (d : Dialect) : (signatures d).Settles (signature d.userEntry) :=
  (lasting d).settles _

end Entry

/-- Renaming the entry function changes the signature that starts first, if there is one, and nothing
else.  A text is cut in one way at its signatures, which are all texts in it of that form; renaming `n`
times renames the first `n` of them, or all if there are fewer, and what is left to be found are the
others. -/
theorem renameEntry_renames_first (d : Dialect) (cs : List Char) :
    ((¬ ∃ m p, Entry.Signs d.entryPoint m p ∧ m <:+: cs) ∧ renameEntry d cs = cs ∨
      ∃ u m p v, cs = u ++ (m ++ v) ∧ Entry.Signs d.entryPoint m p ∧
        (∀ x m' p', Entry.Signs d.entryPoint m' p' → x ++ m' <+: cs → u.length ≤ x.length) ∧
        renameEntry d cs = u ++ (Entry.signature d.userEntry p ++ v)) ∧
      ∃ s : Division String, (∀ s', (Entry.signatures d).Cuts cs s' ↔ s' = s) ∧
        (∀ x m p, (x, m, p) ∈ s.places [] ↔ Entry.Signs d.entryPoint m p ∧ x ++ m <+: cs) ∧
        ∀ n, (renameEntry d)^[n] cs =
            s.renderUpTo (Entry.signature d.userEntry) (min n (s.places []).length) ∧
          ∃ s', (Entry.signatures d).Cuts ((renameEntry d)^[n] cs) s' ∧
            s'.values = s.values.drop n := by
  obtain ⟨s, hcuts⟩ := (Entry.signatures d).exists_cuts_iff cs
  have hs := (hcuts s).2 rfl
  have hfinds : (Entry.pattern d.entryPoint).Finds (Entry.signatures d) := Entry.finds_signatures d
  have hrename : renameEntry d cs = (s.settleFirst (Entry.signature d.userEntry)).text :=
    hfinds.replaceFirst_eq hs
  refine ⟨?_, s, hcuts, fun x m p => ?_, fun n => ?_⟩
  · rw [hrename]
    refine (hs.text_settleFirst (Entry.signature d.userEntry)).imp_left fun ⟨hnone, htext⟩ => ?_
    refine ⟨?_, htext⟩
    rintro ⟨m, p, hm, x, k, heq⟩
    exact hnone x m p hm ⟨k, heq⟩
  · rw [hs.mem_places_iff (Entry.separate_signatures d), Entry.is_signatures_iff]
  · have hn := hfinds.cuts_iterate_replaceFirst (Entry.anywhere_signatures d)
      (Entry.settles_signatures d) hs n
    refine ⟨?_, _, hn, Division.values_iterate_settleFirst n⟩
    rw [Division.renderUpTo_min_length, ← Division.text_iterate_settleFirst]
    exact hn.text_eq.symm

-- a declaration, a definition, and a function whose name starts like the entry function's
example : (renameEntry .standard)^[3]
    "half4 main(float2 p); vec4 main2(vec2 p); float4 main ( in vec2 q ) \x7b \x7d".toList =
      "vec4 userMain(vec2 p); vec4 main2(vec2 p); vec4 userMain(vec2 q) \x7b \x7d".toList := by
  decide +kernel

end ShaderPreview
