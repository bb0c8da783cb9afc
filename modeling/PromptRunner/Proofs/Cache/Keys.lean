import PromptRunner.Cache.Store
import PromptRunner.Cache.FileName
import PromptRunner.Proofs.Files.Following

/-!
# The files of one directory

A file name is made of safe characters, hexadecimal digits and periods, and is long enough not to be
taken for a single or a double period. So the path of a key leads to the directory and to that name
in it, and the paths of two keys with different names never meet.
-/

namespace PromptRunner.Cache

open PromptRunner.Files PromptRunner.Text

variable {t t' : Tree} {cwd d l : Location} {directory model prompt : String}

theorem modelPiece_of_safe {model : List Char} (h : ∀ c ∈ model, isSafe c = true) :
    modelPiece model = model := by
  have hslash : '/' ∉ model := fun hmem => absurd (h _ hmem) (by decide)
  have hname : modelName model = model := by
    rw [modelName, cutAt_of_notMem hslash]
    rfl
  have hmap : (model.map fun c => if c = '.' then '_' else c) = model := by
    rw [List.map_congr_left (g := id) fun c hc => ?_, List.map_id]
    exact if_neg fun hdot => absurd (hdot ▸ h c hc) (by decide)
  rw [modelPiece, hname, hmap, List.filter_eq_self.2 h]

theorem hexDigit_of_mem_digestPiece {c : Char} (h : c ∈ digestPiece model prompt) :
    ∃ n, n < 16 ∧ c = hexDigit n := by
  have h := List.mem_of_mem_take h
  rw [Digest.sha256Hex, hexBytes, List.mem_flatMap] at h
  obtain ⟨byte, -, hbyte⟩ := h
  have hlt := byte.toNat_lt
  rcases List.mem_cons.1 hbyte with rfl | hbyte
  · exact ⟨_, by omega, rfl⟩
  · exact ⟨_, by omega, List.mem_singleton.1 hbyte⟩

theorem slash_notMem_digestPiece (model prompt : String) : '/' ∉ digestPiece model prompt := by
  intro h
  have hdigit : ∀ n, n < 16 → '/' ≠ hexDigit n := by decide
  obtain ⟨n, hn, heq⟩ := hexDigit_of_mem_digestPiece h
  exact hdigit n hn heq

theorem toList_fileName (model prompt : String) : (fileName model prompt).toList =
    promptPiece prompt.toList ++ '.' :: modelPiece model.toList ++
      '.' :: digestPiece model prompt ++ ".json".toList := by
  rw [fileName, String.toList_ofList]

theorem plain_fileName (model prompt : String) : Plain (fileName model prompt) := by
  have hlength : 7 ≤ (fileName model prompt).toList.length := by
    rw [toList_fileName]
    simp only [List.length_append, List.length_cons]
    show 7 ≤ _ + 5
    omega
  refine ⟨?_, ?_, ?_⟩
  · rw [toList_fileName]
    have hslash : isSafe '/' = false := by decide
    simp [notMem_promptPiece hslash, notMem_modelPiece hslash, slash_notMem_digestPiece]
  · have hnil : (fileName model prompt).toList ≠ [] := by
      intro h
      rw [h] at hlength
      exact absurd hlength (by decide)
    have hdot : (fileName model prompt).toList ≠ ['.'] := by
      intro h
      rw [h] at hlength
      exact absurd hlength (by decide)
    simp [Path.isIdle, hnil, hdot]
  · intro h
    rw [h] at hlength
    exact absurd hlength (by decide)

/-- No key has the name of a temporary file. -/
theorem fileName_ne_of_ending (front : List Char) :
    fileName model prompt ≠ String.ofList (front ++ temporaryName.finish.toList) := by
  intro heq
  have hlast := congrArg (fun name => name.toList.getLast?) heq
  simp only [toList_fileName, String.toList_ofList, List.getLast?_append] at hlast
  exact absurd (Option.some.inj hlast) (by decide)

/-- The path of a key leads to its name in the directory. -/
theorem resolve_filePath :
    resolve t cwd false (filePath directory model prompt) = .ok l ↔
      Admissible (filePath directory model prompt) ∧
        byteLength (fileName model prompt).toList ≤ nameLimit ∧
          ∃ d, reach t cwd directory = .ok d ∧ l = fileName model prompt :: d :=
  resolve_join (plain_fileName model prompt)

theorem length_le_byteLength (s : List Char) : s.length ≤ byteLength s := by
  induction s with
  | nil => exact Nat.le_refl 0
  | cons c s ih =>
    have hwidth : 0 < byteWidth c := by
      simp only [byteWidth]
      split_ifs <;> decide
    calc (c :: s).length = 1 + s.length := Nat.add_comm ..
      _ ≤ byteWidth c + byteLength s := Nat.add_le_add hwidth ih

/-- Where the piece of the model alone is too long for a name, no path leads anywhere. -/
theorem no_way_of_long (h : nameLimit < (modelPiece model.toList).length) :
    resolve t cwd false (filePath directory model prompt) ≠ .ok l := by
  intro hway
  obtain ⟨-, hlimit, -⟩ := resolve_filePath.1 hway
  have hpiece : (modelPiece model.toList).length ≤ (fileName model prompt).toList.length := by
    rw [toList_fileName]
    simp only [List.length_append, List.length_cons]
    omega
  have hbytes := length_le_byteLength (fileName model prompt).toList
  omega

/-- Where the path of one key leads, that of another leads to a different place in the same
directory, unless it leads nowhere whatever ways there are. -/
theorem resolve_sibling {m p : String} (hname : fileName m p ≠ fileName model prompt)
    (hk : Keeps t t') (h : resolve t cwd false (filePath directory model prompt) = .ok d)
    (h' : resolve t' cwd false (filePath directory m p) = .ok l) :
    resolve t cwd false (filePath directory m p) = .ok l ∧ l ≠ d := by
  obtain ⟨-, -, d', hreach, rfl⟩ := resolve_filePath.1 h
  obtain ⟨hpath, hlength, l', hreach', rfl⟩ := resolve_filePath.1 h'
  have hsame := reach_keeps hk hreach
  rw [hreach'] at hsame
  cases hsame
  refine ⟨resolve_filePath.2 ⟨hpath, hlength, d', hreach, rfl⟩, fun heq => ?_⟩
  exact hname (List.cons.inj heq).1

end PromptRunner.Cache
