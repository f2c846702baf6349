import Mathlib.Data.String.Basic
import Montage.Command.Storage
/-!
# Paths — the names on a path that is put together

A slash parts the names of what stands before it from those of what follows
(`names_append_slash`). So the path of a file in a directory has the names of
the directory, and the file's name after them (`names_join`), whether the
directory is written with a slash at its end or without.
-/

namespace Montage

namespace Path

/-- A name that can be that of a file: no slash in it, and it leads somewhere
else. -/
structure Plain (name : String) : Prop where
  no_slash : '/' ∉ name.toList
  ne_empty : name ≠ ""
  ne_dot : name ≠ "."
  ne_dots : name ≠ ".."

theorem names_eq (path : String) : names path =
    ((path.toList.splitOnP (· == '/')).map String.ofList).filter (· != "") := by
  rw [names, String.splitToList_of_valid]

theorem names_empty : names "" = [] := by
  rw [names_eq]
  rfl

/-- **A slash parts names.** -/
theorem names_append_slash (a b : String) : names (a ++ "/" ++ b) = names a ++ names b := by
  have htext : (a ++ "/" ++ b).toList = a.toList ++ '/' :: b.toList := by
    rw [String.toList_append, String.toList_append, List.append_assoc]
    rfl
  rw [names_eq, names_eq, names_eq, htext, List.splitOnP_append_cons _ _ (by decide),
    List.map_append, List.filter_append]

variable {name : String}

theorem Plain.names_eq (h : Plain name) : names name = [name] := by
  have hplain : ∀ c ∈ name.toList, (c == '/') = false := by
    intro c hc
    rw [beq_eq_false_iff_ne]
    rintro rfl
    exact h.no_slash hc
  rw [Path.names_eq, List.splitOnP_eq_singleton hplain, List.map_cons, List.map_nil,
    String.ofList_toList]
  exact List.filter_cons_of_pos (bne_iff_ne.mpr h.ne_empty)

/-- A path that asks for a directory has its slash at the end. -/
theorem exists_of_endsInSlash {path : String} (h : endsInSlash path = true) :
    ∃ start, path = start ++ "/" := by
  rw [endsInSlash, String.endsWith_eq_endsWith_toSlice, String.Slice.endsWith_string_iff,
    String.copy_toSlice] at h
  obtain ⟨start, hstart⟩ := h
  refine ⟨String.ofList start, ?_⟩
  rw [← String.toList_inj, String.toList_append, String.toList_ofList, hstart]

/-- **The names of a file's path** are those of its directory, and its own. -/
theorem names_join (directory : String) (h : Plain name) :
    names (join directory name) = names directory ++ [name] := by
  rw [join]
  split
  · next hcase =>
    rcases Bool.or_eq_true_iff.mp hcase with hempty | hslash
    · rw [String.isEmpty_iff.mp hempty, String.empty_append, h.names_eq, names_empty]
      rfl
    · obtain ⟨start, rfl⟩ := exists_of_endsInSlash hslash
      have hstart := names_append_slash start ""
      rw [String.append_empty, names_empty, List.append_nil] at hstart
      rw [names_append_slash, h.names_eq, hstart]
  · rw [names_append_slash, h.names_eq]

theorem isAbsolute_eq_false {path : String} (h : path.toList.head? ≠ some '/') :
    isAbsolute path = false := by
  have hslash : "/".toList = ['/'] := rfl
  rw [isAbsolute, Bool.eq_false_iff, Ne, String.startsWith_string_iff, hslash]
  rintro ⟨rest, hrest⟩
  rw [← hrest] at h
  exact h rfl

/-- It starts where the path of the directory does. -/
theorem isAbsolute_join (directory : String) (h : Plain name) :
    isAbsolute (join directory name) = isAbsolute directory := by
  by_cases hdirectory : directory = ""
  · subst hdirectory
    have hjoin : join "" name = name := String.empty_append
    rw [hjoin, isAbsolute_eq_false, isAbsolute_eq_false (by decide)]
    intro hhead
    exact h.no_slash (List.mem_of_mem_head? hhead)
  · obtain ⟨c, cs, hcs⟩ : ∃ c cs, directory.toList = c :: cs := by
      refine List.exists_cons_of_ne_nil fun hnil => hdirectory ?_
      rw [← String.toList_inj, hnil]
      rfl
    have hjoin : ∃ rest, (join directory name).toList = c :: rest := by
      rw [join]
      split
      · exact ⟨cs ++ name.toList, by rw [String.toList_append, hcs, List.cons_append]⟩
      · exact ⟨cs ++ "/".toList ++ name.toList, by
          rw [String.toList_append, String.toList_append, hcs, List.cons_append, List.cons_append]⟩
    obtain ⟨rest, hrest⟩ := hjoin
    have hslash : "/".toList = ['/'] := rfl
    rw [Bool.eq_iff_iff, isAbsolute, isAbsolute, String.startsWith_string_iff,
      String.startsWith_string_iff, hrest, hcs, hslash, List.singleton_prefix_cons_iff,
      List.singleton_prefix_cons_iff]

/-- Its file is the one of that name. -/
theorem fileName?_join (directory : String) (h : Plain name) :
    fileName? (join directory name) = some name := by
  have hlast : (components (join directory name)).getLast? = some name := by
    have hkept : [name].filter (· != ".") = [name] :=
      List.filter_cons_of_pos (bne_iff_ne.mpr h.ne_dot)
    rw [components, names_join directory h, List.filter_append, hkept]
    exact List.getLast?_concat
  rw [fileName?, hlast]
  split
  · next heq => exact absurd (Option.some.inj heq) h.ne_dots
  · rfl

/-- The name of a file for a picture: something, a dot, and `png`. -/
structure Png (name : String) : Prop extends Plain name where
  parts : ∃ stem ≠ [], name.toList.splitOnP (· == '.') = [stem, "png".toList]

end Path

/-- The extension of a file that is written tells the format to read it in. -/
theorem ofExtension?_of_formatFor {path : String} {format : Format}
    (h : formatFor path = .ok format) :
    Path.extension? path >>= Format.ofExtension? = some format := by
  rw [formatFor] at h
  split at h
  · cases h
  · next e he =>
    rw [he]
    split at h
    · cases h
    · next f hf =>
      rw [← Except.ok.inj h]
      exact hf

/-- **The format of a file's path** is the one that its own name asks for. -/
theorem formatFor_join_png (directory : String) {name : String} (h : Path.Png name) :
    formatFor (Path.join directory name) = .ok .png := by
  obtain ⟨stem, hne, hparts⟩ := h.parts
  have hstem : String.ofList stem ≠ "" := by
    rw [Ne, ← String.toList_inj, String.toList_ofList]
    exact hne
  have hextension : Path.extension? (Path.join directory name) = some "png" := by
    rw [Path.extension?, Path.fileName?_join directory h.toPlain]
    simp only [bind, Option.bind, String.splitToList_of_valid, hparts, List.map_cons, List.map_nil,
      String.ofList_toList, List.reverse_cons, List.reverse_nil, List.nil_append, List.cons_append]
    split
    · next heq => cases heq
    · next heq => cases heq
    · next heq => exact absurd (List.cons.inj (List.cons.inj heq).2).1 hstem
    · next heq => rw [(List.cons.inj heq).1]
  have hformat : Format.ofExtension? "png" = some .png := by decide +kernel
  simp only [formatFor, hextension, hformat]

end Montage
