import LoopPainter.Proofs.Store.Saving
import LoopPainter.Proofs.Yaml.RoundTrip

/-!
# YAML files written and read

A file that was saved holds the written text of a value, all of whose numbers are short enough to be
written (`short_of_run_saveFile`).  A legible text comes back from the file as it is, so what is
read of the file is what is read of the text (`loadFile_of_run_saveFile`).
-/

namespace LoopPainter

/-- The text of a string is read again from its bytes. -/
theorem fromUTF8?_toUTF8 (text : String) : String.fromUTF8? text.toUTF8 = some text := by
  unfold String.fromUTF8?
  rw [String.toUTF8_eq_toByteArray, dif_pos text.isValidUTF8]
  rfl

theorem Text.unifyBreaks_of_not_mem {s : List Char} (h : '\r' ∉ s) : unifyBreaks s = s := by
  fun_induction unifyBreaks s with
  | case1 rest ih => simp at h
  | case2 rest _ ih => simp at h
  | case3 c rest _ hc ih => rw [ih fun hmem => h (List.mem_cons_of_mem _ hmem)]
  | case4 => rfl

namespace Yaml

variable {s s' : Store} {path : Path} {d d' : Datum}

/-- A file with a legible text is read as its text. -/
theorem loadFile_of_content {text : String} (hcontent : s.content path = .ok (.bytes text.toUTF8))
    (hlegible : Legible text.toList) :
    loadFile s path = (load text).mapError (.content path.toString) := by
  obtain ⟨hlocate, hfind⟩ := Store.content_eq_ok.mp hcontent
  have hstat := Store.stat_eq_ok_some.mpr ⟨hlocate, hfind⟩
  have htext : textOf (.bytes text.toUTF8) = .ok text := by
    have hreturn : '\r' ∉ text.toList := fun hmem => (hlegible _ hmem).2 rfl
    rw [textOf, fromUTF8?_toUTF8]
    dsimp only
    rw [Text.unifyBreaks_of_not_mem hreturn, String.ofList_toList]
  rw [loadFile, hstat, hcontent]
  exact congrArg (fun r => r >>= fun text => (load text).mapError (.content path.toString)) htext

theorem short_of_run_saveFile (h : (saveFile path d).run s = (.ok (), s')) :
    d.hasLongNumber = false := by
  rw [← Bool.not_eq_true]
  intro hlong
  rw [saveFile, if_pos hlong] at h
  cases h

/-- A value that was saved is read from the file as it is from its written text. -/
theorem loadFile_of_run_saveFile (h : (saveFile path d).run s = (.ok (), s'))
    (hlegible : Legible (dump d)) (hload : load (String.ofList (dump d)) = .ok d') :
    loadFile s' path = .ok d' := by
  obtain ⟨t, c, s₁, -, hnew, -, hreplaced⟩ := Store.Payload.saved_of_run (w := .document d) h
  obtain rfl := Option.some.inj hnew
  rw [loadFile_of_content hreplaced.content (by rwa [String.toList_ofList]), hload]
  rfl

end Yaml

end LoopPainter
