import AgentStack.Core.Canonical

/-! Paths as texts and as their segments. -/
namespace AgentStack.Core

open FileTree

theorem splitChars_ne_nil (sep : Char) (cs : List Char) : splitChars sep cs ≠ [] := by
  cases cs with
  | nil => simp [splitChars]
  | cons c cs =>
    rw [splitChars]
    split
    · simp
    · split <;> simp

/-- Joining the pieces with the separator gives the text back. -/
theorem intercalate_splitChars (sep : Char) (cs : List Char) :
    List.intercalate [sep] (splitChars sep cs) = cs := by
  induction cs with
  | nil => rfl
  | cons c cs ih =>
    have hne := splitChars_ne_nil sep cs
    rw [splitChars]
    cases hs : splitChars sep cs with
    | nil => exact absurd hs hne
    | cons piece rest =>
      rw [hs] at ih
      split
      · rename_i hc
        rw [List.intercalate_cons_cons, ih, hc]
        rfl
      · cases rest with
        | nil =>
          simp only [List.intercalate_singleton] at ih ⊢
          rw [ih]
        | cons next rest =>
          rw [List.intercalate_cons_cons] at ih ⊢
          simp only [List.cons_append, ih]

theorem joinPath_segments (value : String) : joinPath (segments value) = value := by
  have hlist : (joinPath (segments value)).toList = value.toList := by
    rw [joinPath, segments, JsonText.charsOf_eq, String.toList_intercalate, List.map_map]
    have hid : String.toList ∘ String.ofList = id := by
      funext cs
      simp
    rw [hid, List.map_id]
    exact intercalate_splitChars '/' value.toList
  exact String.toList_inj.mp hlist

theorem segments_injective : Function.Injective segments :=
  Function.LeftInverse.injective joinPath_segments

variable {nfc : String → String} {value : String} {path : Path}

theorem normalizePath_eq_ok (h : normalizePath nfc value = .ok path) :
    path = segments (nfc value) := by
  simp only [normalizePath] at h
  split_ifs at h
  simpa [segments] using h.symm

/-- A normalized path is its own normal form. -/
theorem normalizePath_joinPath (hnfc : ∀ s, nfc (nfc s) = nfc s)
    (h : normalizePath nfc value = .ok path) : normalizePath nfc (joinPath path) = .ok path := by
  have hjoin : joinPath path = nfc value := by
    rw [normalizePath_eq_ok h, joinPath_segments]
  have hsame : normalizePath nfc (nfc value) = normalizePath nfc value := by
    simp only [normalizePath, hnfc]
  rw [hjoin, hsame, h]

end AgentStack.Core
