import LoopPainter.Proofs.Job.Replay
import LoopPainter.Proofs.Render.Outcome
import LoopPainter.Proofs.Yaml.File

/-!
# Summaries read again

A summary that a render has written is read as a mapping with the numbers that the render reports
and with the values of the job, each as it comes back from a file (`load_summary`).  So the job is
read again unless one of its texts has changed on the way: the control character U+0085 is a line
break to a reader, and only a text between double quotes holds it escaped (`summary_of_render`).
-/

namespace LoopPainter

open Yaml

variable {j : Job} {d : Drawing} {path : Path} {s s' : Store} {r : Rendered} {notes : List Note}

/-! ## The mapping of a job -/

namespace Job

theorem nodup_keys : (Field.all.map fun f => Datum.text f.key).Nodup := by
  have hkeys : ∀ f ∈ Field.all, ∀ f' ∈ Field.all, f.key = f'.key → f = f' := by decide
  refine List.Nodup.map_on (fun f hf f' hf' h => hkeys f hf f' hf' ?_) (by decide)
  exact Datum.text.inj h

theorem scribes_value (hpath : j.summary = some path)
    (hshort : Text.isTooLong j.interval.val = false) (f : Field) :
    Scribes 2 (j.value f) (readScalar (j.value f)) := by
  have hside (n : Side) : Text.isTooLong n.val = false :=
    Text.isTooLong_eq_false_of_lt (n := 5) (by decide) (n.property.2.trans_lt (by decide))
  cases f with
  | width => exact scribes_int (by decide) (hside j.width)
  | height => exact scribes_int (by decide) (hside j.height)
  | interval => exact scribes_int (by decide) hshort
  | schema | background | output | commands => exact scribes_text (by decide) _
  | summary =>
      rw [value, hpath]
      exact scribes_text (by decide) _

theorem replays_toDatum (hpath : j.summary = some path)
    (hshort : Text.isTooLong j.interval.val = false) :
    Replays 0 j.toDatum (.map (listed fun f => readScalar (j.value f))) := by
  refine replays_map ?_ (List.cons_ne_nil _ _) nodup_keys
  rw [toPairs, listed, List.forall₂_map_left_iff, List.forall₂_map_right_iff, List.forall₂_same]
  exact fun f _ => ⟨f.key, label_key f, rfl, rfl, (scribes_value hpath hshort f).replays⟩

end Job

/-! ## The mapping of a summary -/

namespace Drawing

/-- A summary as it is read again. -/
def replayed (j : Job) (d : Drawing) : List (Datum × Datum) :=
  [(.text "job", .map (Job.listed fun f => readScalar (j.value f))), (.text "steps", .int d.steps),
    (.text "frames", .int (d.frameCount j)),
    (.text "final_position", .list [.int d.position.1, .int d.position.2])]

theorem load_summary (hpath : j.summary = some path)
    (hshort : (d.summary j).hasLongNumber = false) :
    Legible (dump (d.summary j)) ∧
      load (String.ofList (dump (d.summary j))) = .ok (.map (d.replayed j)) := by
  simp only [hasLongNumber_summary, Bool.or_eq_false_iff] at hshort
  -- each number has to be short enough to be written as a number
  obtain ⟨⟨⟨⟨hinterval, hsteps⟩, hframes⟩, hx⟩, hy⟩ := hshort
  have hint {i : ℤ} (h : Text.isTooLong i = false) : Scribes 0 (.int i) (.int i) :=
    scribes_int (by decide) h
  have hpair {key : String} (hlabel : Label key.toList) {v v' : Datum} (hv : Replays 0 v v') :
      ReplaysPair 0 (.text key, v) (.text key, v') := ⟨key, hlabel, rfl, rfl, hv⟩
  have hlabel : ∀ key ∈ ["job", "steps", "frames", "final_position"], Label key.toList := by
    simp only [List.forall_mem_cons, List.not_mem_nil, false_imp_iff, implies_true, and_true]
    refine ⟨?_, ?_, ?_, ?_⟩
    all_goals exact label_of_all (by decide) (by decide) (by decide) (by decide)
  have hposition : Replays 0 (.list [.int d.position.1, .int d.position.2])
      (.list [.int d.position.1, .int d.position.2]) :=
    replays_list (.cons (hint hx) (.cons (hint hy) .nil)) (List.cons_ne_nil _ _)
  have hpairs : List.Forall₂ (ReplaysPair 0) _ (d.replayed j) :=
    .cons (hpair (hlabel "job" (by decide)) (Job.replays_toDatum hpath hinterval))
      (.cons (hpair (hlabel "steps" (by decide)) (hint hsteps).replays)
        (.cons (hpair (hlabel "frames" (by decide)) (hint hframes).replays)
          (.cons (hpair (hlabel "final_position" (by decide)) hposition) .nil)))
  have hdistinct : ((d.replayed j).map (·.1)).Nodup := by
    have hkeys : (["job", "steps", "frames", "final_position"].map Datum.text).Nodup :=
      List.Nodup.map (fun _ _ => Datum.text.inj) (by decide)
    exact hkeys
  exact load_dump hpairs (List.cons_ne_nil _ _) hdistinct

end Drawing

open Drawing

/-! ## The summary of a render -/

/-- A summary that was written is read as a mapping with what the render reports.  The job in it is
the job that was rendered exactly if every text of it that holds U+0085 was written between double
quotes. -/
theorem summary_of_render {pairs : List (Datum × Datum)} (hjob : Job.ofPairs pairs = .ok j)
    (hpath : j.summary = some path) (h : render j s = (.ok r, s', notes)) :
    ∃ top job, loadFile s' path = .ok (.map top) ∧
      Datum.get? "job" top = some (.map job) ∧
      Datum.get? "steps" top = some (.int r.steps) ∧
      Datum.get? "frames" top = some (.int r.frames) ∧
      Datum.get? "final_position" top = some (.list [.int r.position.1, .int r.position.2]) ∧
      (Job.ofPairs job = .ok j ↔
        ∀ text ∈ [j.output.val.toString, j.commands, path.toString],
          '\u0085' ∈ text.toList → styleOf text.toList = .double) := by
  obtain ⟨-, rfl, s₁, -, hsave⟩ := exists_render_eq_ok_iff.mp ⟨notes, h⟩
  rw [saveSummary, hpath] at hsave
  generalize ofJob j = d at hsave ⊢
  dsimp only [rendered]
  obtain ⟨hlegible, hload⟩ := load_summary hpath (short_of_run_saveFile hsave)
  refine ⟨_, _, loadFile_of_run_saveFile hsave hlegible hload, rfl, rfl, rfl, rfl, ?_⟩
  have htexts : j.texts = [j.output.val.toString, j.commands, path.toString] := by
    rw [Job.texts, hpath]
    rfl
  rw [Job.ofPairs_listed_iff, Job.reads_readScalar_iff (Job.ofPairs_eq_ok_iff.mp hjob), htexts]
  exact forall₂_congr fun text _ => readBack_eq_self_iff

/-- A program with U+0085 between two letters is written between single quotes, and then the job of
the summary is another one. -/
theorem summary_of_render_next_line :
    ∃ j r s notes top job,
      Job.ofPairs [(.text "width", .int 1), (.text "height", .int 1),
        (.text "output", .text "a.png"), (.text "commands", .text "a\u0085b"),
        (.text "summary", .text "b.yaml")] = .ok j ∧
      render j {} = (.ok r, s, notes) ∧
      loadFile s ⟨.relative, ["b.yaml"]⟩ = .ok (.map top) ∧
      Datum.get? "job" top = some (.map job) ∧ Datum.get? "steps" top = some (.int r.steps) ∧
      Job.ofPairs job ≠ .ok j := by
  let j : Job := .onOneCell ⟨⟨.relative, ["a.png"]⟩, by decide⟩ "a\u0085b"
    (some ⟨.relative, ["b.yaml"]⟩)
  have hjob : Job.ofPairs [(.text "width", .int 1), (.text "height", .int 1),
      (.text "output", .text "a.png"), (.text "commands", .text "a\u0085b"),
      (.text "summary", .text "b.yaml")] = .ok j := by
    rfl
  have hwrites (c : Canvas) (d : Datum) : ∃ s₁ s₂,
      (Export.saveCanvas ⟨.relative, ["a.png"]⟩ c).run {} = (.ok (), s₁) ∧
      (Store.saveBytes ⟨.relative, ["b.yaml"]⟩ (String.ofList (dump d)).toUTF8).run s₁ =
        (.ok (), s₂) :=
    ⟨_, _, rfl, rfl⟩
  have hshort : ((ofJob j).summary j).hasLongNumber = false := by
    have hsteps : (startMachine (.onOneCell ⟨⟨.relative, ["a.png"]⟩, by decide⟩ "a\u0085b")).run.1 =
        3 := by
      rw [startMachine, Machine.run_start]
      decide +kernel
    rw [hasLongNumber_summary_of_one_cell _ _ (by decide), hsteps]
    exact Text.isTooLong_eq_false_of_lt (n := 1) (by decide) (by decide)
  obtain ⟨s₁, s₂, himage, hsummary⟩ := hwrites (ofJob j).machine.canvas ((ofJob j).summary j)
  rw [← Store.Payload.save_document hshort] at hsummary
  obtain ⟨notes, hrender⟩ := exists_render_still (j := j) (by decide) (by decide) himage hsummary
  obtain ⟨top, job, hfile, hget, hsteps, -, -, hiff⟩ := summary_of_render hjob rfl hrender
  refine ⟨j, _, s₂, notes, top, job, hjob, hrender, hfile, hget, hsteps, fun hsame => ?_⟩
  -- only a text between double quotes is read as it was, and this one is between single quotes
  have hdouble := hiff.mp hsame "a\u0085b" (by decide) (by decide)
  exact absurd hdouble (by decide)

end LoopPainter
