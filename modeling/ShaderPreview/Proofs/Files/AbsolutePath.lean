import ShaderPreview.Files.Path

/-!
# Absolute paths

A path that is written down and read again is the same path, if it is absolute and free of what says
nothing: empty names, single dots and two dots.  Making a path absolute gives such a path, so that a
second time changes nothing: two spellings of one path have one absolute path, however often it is
made absolute.

* `Path.IsName`: what stands between slashes;
* `Path.Normal`: absolute paths as they are written;
* `Path.ofText_text`: a normal path can be read from its text;
* `Path.absolute_text_absolute`: making a path absolute twice.
-/

namespace ShaderPreview
namespace Files
namespace Path

/-- A name that says something: it is not empty, not a single dot, and has no slash. -/
def IsName (name : String) : Prop :=
  name ≠ "" ∧ name ≠ "." ∧ '/' ∉ name.toList

instance : DecidablePred IsName := fun name =>
  inferInstanceAs (Decidable (name ≠ "" ∧ name ≠ "." ∧ '/' ∉ name.toList))

/-- An absolute path, of names that say something and are not two dots. -/
structure Normal (p : Path) : Prop where
  root : p.root ≠ .here
  isName : ∀ name ∈ p.names, IsName name
  up : ".." ∉ p.names

variable {cwd : Location} {name : String} {names : List String} {cs : List Char} {p : Path}

/-! ## Names -/

/-- What stands between slashes has none. -/
theorem slash_not_mem_of_mem_splitOn {piece : List Char} (h : piece ∈ cs.splitOn '/') :
    '/' ∉ piece := by
  induction cs generalizing piece with
  | nil =>
    rw [List.splitOn_nil, List.mem_singleton] at h
    simp [h]
  | cons c cs ih =>
    rw [List.splitOn_cons_eq_if_modifyHead] at h
    split at h
    · rcases List.mem_cons.1 h with rfl | h
      · exact List.not_mem_nil
      · exact ih h
    · next hc =>
      cases hsplit : cs.splitOn '/' with
      | nil => exact absurd hsplit (List.splitOn_ne_nil _ _)
      | cons first pieces =>
        rw [hsplit, List.modifyHead_cons] at h
        rcases List.mem_cons.1 h with rfl | h
        · have hfirst : '/' ∉ first := ih (hsplit ▸ List.mem_cons_self)
          have hne : '/' ≠ c := by
            rintro rfl
            exact hc rfl
          exact List.not_mem_cons_of_ne_of_not_mem hne hfirst
        · exact ih (hsplit ▸ List.mem_cons_of_mem _ h)

theorem isName_of_mem_namesOf (h : name ∈ namesOf cs) : IsName name := by
  obtain ⟨hmem, hkeep⟩ := List.mem_filter.1 h
  obtain ⟨piece, hpiece, rfl⟩ := List.mem_map.1 hmem
  simp only [Bool.and_eq_true, bne_iff_ne] at hkeep
  refine ⟨hkeep.1, hkeep.2, ?_⟩
  rw [String.toList_ofList]
  exact slash_not_mem_of_mem_splitOn hpiece

/-- Names that are joined by slashes can be read again. -/
theorem namesOf_intercalate (h : ∀ name ∈ names, IsName name) :
    namesOf (['/'].intercalate (names.map String.toList)) = names := by
  by_cases hnil : names = []
  · subst hnil
    rfl
  · have hsplit : (['/'].intercalate (names.map String.toList)).splitOn '/' =
        names.map String.toList := by
      refine List.splitOn_intercalate '/' (fun piece hpiece => ?_) (by simpa using hnil)
      obtain ⟨name, hname, rfl⟩ := List.mem_map.1 hpiece
      exact (h name hname).2.2
    have hnames : (names.map String.toList).map String.ofList = names := by simp
    rw [namesOf, hsplit, hnames, List.filter_eq_self]
    intro name hname
    simpa using ⟨(h name hname).1, (h name hname).2.1⟩

/-- A slash in front makes no name. -/
@[simp] theorem namesOf_slash_cons (cs : List Char) : namesOf ('/' :: cs) = namesOf cs := by
  rw [namesOf, namesOf, List.splitOn_cons_eq_if_modifyHead, if_pos (by decide)]
  rfl

/-! ## Two dots -/

/-- What remains is among the names and not two dots. -/
theorem mem_of_mem_collapse (h : name ∈ collapse names) : name ∈ names ∧ name ≠ ".." := by
  have hfold : ∀ (names above : List String),
      name ∈ names.foldl (fun above name => if name = ".." then above.tail else name :: above) above →
        (name ∈ names ∧ name ≠ "..") ∨ name ∈ above := by
    intro names
    induction names with
    | nil => exact fun above h => .inr h
    | cons first names ih =>
      intro above h
      rcases ih _ h with ⟨hmem, hne⟩ | hmem
      · exact .inl ⟨List.mem_cons_of_mem _ hmem, hne⟩
      · dsimp only at hmem
        split at hmem
        · exact .inr (List.mem_of_mem_tail hmem)
        · next hfirst =>
          rcases List.mem_cons.1 hmem with rfl | hmem
          · exact .inl ⟨List.mem_cons_self, hfirst⟩
          · exact .inr hmem
  rcases hfold names [] (List.mem_reverse.1 h) with h | h
  · exact h
  · exact absurd h List.not_mem_nil

/-- Without two dots all names remain. -/
theorem collapse_eq_self (h : ".." ∉ names) : collapse names = names := by
  have hfold : ∀ (names above : List String), ".." ∉ names →
      names.foldl (fun above name => if name = ".." then above.tail else name :: above) above =
        names.reverse ++ above := by
    intro names
    induction names with
    | nil => exact fun above _ => rfl
    | cons first names ih =>
      intro above h
      rw [List.mem_cons, not_or] at h
      rw [List.foldl_cons, if_neg (Ne.symm h.1), ih _ h.2]
      simp
  rw [collapse, hfold names [] h, List.append_nil, List.reverse_reverse]

/-! ## Absolute paths -/

/-- Making a path absolute gives a normal path, if the working directory has proper names. -/
theorem normal_absolute (hcwd : ∀ name ∈ cwd, IsName name) (s : String) :
    (absolute cwd s).Normal := by
  have hnames : ∀ {names : List String}, (∀ name ∈ names, IsName name) →
      (∀ name ∈ collapse names, IsName name) ∧ ".." ∉ collapse names := fun h =>
    ⟨fun name hname => h name (mem_of_mem_collapse hname).1,
      fun hup => (mem_of_mem_collapse hup).2 rfl⟩
  have htext : ∀ name ∈ (ofText s).names, IsName name := fun name => isName_of_mem_namesOf
  simp only [absolute]
  split
  · have hall : ∀ name ∈ cwd ++ (ofText s).names, IsName name := by
      intro name hname
      rcases List.mem_append.1 hname with hname | hname
      · exact hcwd name hname
      · exact htext name hname
    exact ⟨by simp, (hnames hall).1, (hnames hall).2⟩
  · next hroot => exact ⟨hroot, (hnames htext).1, (hnames htext).2⟩

theorem toList_text (h : p.root ≠ .here) :
    p.text.toList = (rootText p.root).toList ++ ['/'].intercalate (p.names.map String.toList) := by
  rw [text, if_neg (fun hhere => h hhere.1), String.toList_append, String.toList_intercalate]
  rfl

/-- The names of a path, joined by slashes, do not begin with one. -/
theorem takeWhile_slash_intercalate (h : ∀ name ∈ names, IsName name) :
    (['/'].intercalate (names.map String.toList)).takeWhile (· == '/') = [] := by
  cases names with
  | nil => rfl
  | cons name names =>
    obtain ⟨hne, -, hslash⟩ := h name List.mem_cons_self
    obtain ⟨c, cs, hcs⟩ := List.exists_cons_of_ne_nil (mt String.toList_eq_nil_iff.1 hne)
    have hc : c ≠ '/' := by
      rintro rfl
      exact hslash (hcs ▸ List.mem_cons_self)
    cases names with
    | nil => simp [hcs, hc]
    | cons next names => simp [hcs, hc, List.intercalate]

/-- A normal path can be read from its text. -/
theorem ofText_text (h : p.Normal) : ofText p.text = p := by
  have hstart := takeWhile_slash_intercalate h.isName
  have hread := namesOf_intercalate h.isName
  obtain ⟨root, names⟩ := p
  rw [ofText, toList_text h.root]
  cases root with
  | here => exact absurd rfl h.root
  | top => simp [rootText, rootOf, hstart, hread]
  | doubled => simp [rootText, rootOf, hstart, hread]

/-- A normal path is absolute already. -/
theorem absolute_text (h : p.Normal) (cwd : Location) : absolute cwd p.text = p := by
  have hroot := h.root
  rw [absolute, ofText_text h, collapse_eq_self h.up]
  split
  · next hhere => exact absurd hhere hroot
  · rfl

/-- Making a path absolute a second time changes nothing. -/
theorem absolute_text_absolute (hcwd : ∀ name ∈ cwd, IsName name) (s : String) :
    absolute cwd (absolute cwd s).text = absolute cwd s :=
  absolute_text (normal_absolute hcwd s) cwd

end Path
end Files
end ShaderPreview
