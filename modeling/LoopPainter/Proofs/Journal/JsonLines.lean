import LoopPainter.Journal.Record
import LoopPainter.Proofs.Json.RoundTrip

/-!
# What a JSON line says

The members of a line are those of its record, in which the fields are put one after the other: a
field takes the place of a member of the same name (`get?_push`), and all others follow the members
(`names_push`).  If the fields are texts, the line is a single one and says exactly this
(`json_line_reads_back`).
-/

namespace LoopPainter

namespace Journal

namespace Fields

variable {added fields : Fields}

/-! ## Fields that are put together -/

theorem push_cons (entry : String × Datum) (added fields : Fields) :
    push (entry :: added) fields = push added (put entry.1 entry.2 fields) := rfl

theorem get?_eq_none {name : String} (h : name ∉ fields.names) : fields.get? name = none := by
  rw [get?, List.lookup_eq_none_iff]
  intro entry hentry
  rw [bne_iff_ne]
  rintro rfl
  exact h (List.mem_map_of_mem hentry)

theorem get?_cons (entry : String × Datum) (fields : Fields) (key : String) :
    get? key (entry :: fields) = if key = entry.1 then some entry.2 else fields.get? key := by
  obtain ⟨name, value⟩ := entry
  rw [get?, List.lookup_cons]
  by_cases hkey : key = name
  · simp [hkey]
  · rw [if_neg hkey, beq_eq_false_iff_ne.mpr hkey]
    rfl

/-- A value that was put takes the place of the old one. -/
theorem get?_push (hadded : added.names.Nodup) (key : String) :
    (push added fields).get? key = (added.get? key).or (fields.get? key) := by
  induction added generalizing fields with
  | nil => rfl
  | cons entry added ih =>
      obtain ⟨hentry, hadded⟩ := List.nodup_cons.mp hadded
      rw [push_cons, ih hadded, get?_put, get?_cons]
      by_cases hkey : key = entry.1
      · rw [hkey, get?_eq_none hentry]
        simp
      · simp [hkey]

/-- New names follow the old ones. -/
theorem names_push (hadded : added.names.Nodup) :
    (push added fields).names = fields.names ++ added.names.filter (· ∉ fields.names) := by
  induction added generalizing fields with
  | nil => simp [push, names]
  | cons entry added ih =>
      obtain ⟨hentry, hadded⟩ := List.nodup_cons.mp hadded
      have hnames : names (entry :: added) = entry.1 :: names added := rfl
      rw [push_cons, ih hadded, names_put, hnames]
      by_cases hold : entry.1 ∈ fields.names
      · simp [hold]
      · have hsame : (names added).filter (· ∉ fields.names ++ [entry.1]) =
            (names added).filter (· ∉ fields.names) := by
          refine List.filter_congr fun name hname => ?_
          have hne : name ≠ entry.1 := by
            rintro rfl
            exact hentry hname
          simp [hne]
        rw [if_neg hold, hsame, List.filter_cons_of_pos (by simpa using hold), List.append_assoc,
          List.singleton_append]

theorem mem_put {name : String} {value : Datum} {entry : String × Datum}
    (h : entry ∈ put name value fields) : entry = (name, value) ∨ entry ∈ fields := by
  induction fields with
  | nil => exact .inl (List.mem_singleton.mp h)
  | cons first fields ih =>
      unfold put at h
      split at h
      · exact (List.mem_cons.mp h).imp_right (List.mem_cons_of_mem _)
      · rcases List.mem_cons.mp h with rfl | h
        · exact .inr List.mem_cons_self
        · exact (ih h).imp_right (List.mem_cons_of_mem _)

theorem mem_push {entry : String × Datum} (h : entry ∈ push added fields) :
    entry ∈ added ∨ entry ∈ fields := by
  induction added generalizing fields with
  | nil => exact .inr h
  | cons first added ih =>
      rcases ih (push_cons first added fields ▸ h) with h | h
      · exact .inl (List.mem_cons_of_mem _ h)
      · refine (mem_put h).imp_left ?_
        rintro rfl
        exact List.mem_cons_self

/-! ## Fields as a mapping -/

theorem get?_pairsOf (key : String) (fields : Fields) :
    Datum.get? key (Json.pairsOf fields) = fields.get? key := by
  induction fields with
  | nil => rfl
  | cons entry fields ih =>
      have hsame : Datum.sameKey (.text entry.1) (.text key) = decide (key = entry.1) := by
        rw [Bool.eq_iff_iff, Datum.sameKey_text, decide_eq_true_iff, Datum.text.injEq, eq_comm]
      rw [get?_cons, ← ih]
      change (if Datum.sameKey (.text entry.1) (.text key) then _ else _) = _
      rw [hsame]
      simp only [decide_eq_true_eq]
      rfl

theorem fst_pairsOf (fields : Fields) :
    (Json.pairsOf fields).map Prod.fst = fields.names.map Datum.text := by
  rw [Json.pairsOf, names, List.map_map, List.map_map]
  rfl

end Fields

/-! ## Lines -/

variable {f : Form} {process : ℕ} {fields : Fields} {r : Record} {m : Moment} {message : String}

/-- The members of a line that come from its record. -/
def Record.ownMembers (process : ℕ) (m : Moment) (r : Record) (message : String) : Fields :=
  [("t", .text (String.ofList (m.iso 'T'))), ("lvl", .text r.levelName), ("name", .text r.source),
    ("pid", .int process), ("msg", .text message)]

theorem nodup_names_ownMembers : (r.ownMembers process m message).names.Nodup := by
  simp [Record.ownMembers, Fields.names]

theorem isPlain_ownMembers : ∀ own ∈ r.ownMembers process m message, Json.IsPlain own.2 := by
  simp only [Record.ownMembers, List.forall_mem_cons]
  exact ⟨.text _, .text _, .text _, .natural _, .text _, nofun⟩

theorem members_eq (hcrash : r.crash = none) :
    members process m fields r message = Fields.push fields (r.ownMembers process m message) := by
  rw [members, hcrash]
  rfl

theorem nodup_names_members (hnames : fields.names.Nodup) (hcrash : r.crash = none) :
    (members process m fields r message).names.Nodup := by
  rw [members_eq hcrash, Fields.names_push hnames, List.nodup_append]
  refine ⟨nodup_names_ownMembers, hnames.filter _, ?_⟩
  rintro a ha b hb rfl
  simpa [ha] using (List.mem_filter.mp hb).2

theorem isPlain_members (htexts : ∀ entry ∈ fields, ∃ s, entry.2 = .text s)
    (hcrash : r.crash = none) :
    ∀ entry ∈ members process m fields r message, Json.IsPlain entry.2 := by
  intro entry hentry
  rw [members_eq hcrash] at hentry
  rcases Fields.mem_push hentry with hfield | hown
  · obtain ⟨s, hs⟩ := htexts entry hfield
    rw [hs]
    exact .text s
  · exact isPlain_ownMembers entry hown

/-- A line that shows texts as fields is one line of printable characters, and is read back as the
members of the record, in whose place the fields have been put. -/
theorem json_line_reads_back (hjson : f.json = true) (hcrash : r.crash = none)
    (hnames : fields.names.Nodup) (htexts : ∀ entry ∈ fields, ∃ s, entry.2 = .text s)
    (htime : Moment.ofEpoch r.created (if f.universal then some 0 else none) = .ok m)
    (hmessage : r.message = .ok message) :
    ∃ line pairs, f.line process fields r = .ok line ∧
      (∀ c ∈ line.toList, ' ' ≤ c ∧ c ≤ '~') ∧
      Json.parse line.toList = some (.map pairs) ∧
      (∀ key, Datum.get? key pairs =
        (fields.get? key).or ((r.ownMembers process m message).get? key)) ∧
      pairs.map Prod.fst = (["t", "lvl", "name", "pid", "msg"] ++
        fields.names.filter (· ∉ ["t", "lvl", "name", "pid", "msg"])).map Datum.text := by
  have hplain : ∀ entry ∈ members process m fields r message, Json.IsPlain entry.2 :=
    isPlain_members htexts hcrash
  have hnodup : ((members process m fields r message).map Prod.fst).Nodup :=
    nodup_names_members hnames hcrash
  have hline : f.line process fields r = .ok (jsonLine process m fields r message) := by
    rw [Form.line, htime, hmessage, hjson]
    rfl
  -- the line is the printed mapping of the members, so both facts are about printing
  have hprinted : (jsonLine process m fields r message).toList =
      Json.print (.map (Json.pairsOf (members process m fields r message))) :=
    String.toList_ofList
  refine ⟨_, Json.pairsOf (members process m fields r message), hline, ?_, ?_, ?_, ?_⟩
  · intro c hc
    rw [hprinted] at hc
    simpa [Json.isPrintable] using Json.isPrintable_print_map hplain c hc
  · rw [hprinted]
    exact Json.parse_print_map hplain hnodup
  · intro key
    rw [Fields.get?_pairsOf, members_eq hcrash, Fields.get?_push hnames]
  · rw [Fields.fst_pairsOf, members_eq hcrash, Fields.names_push hnames]
    rfl

/-- A record of two lines, with marks and a character beyond the basic plane. -/
def clef : Record where
  created := .finite false 0 0
  level := Level.info
  source := "music\t"
  template := "\"G\"\n\\ 𝄞"

/-- Its line is a single one, and a field takes the place of its level. -/
theorem json_line_reads_back_clef :
    ∃ line pairs, (⟨true, false, true⟩ : Form).line 7 [("lvl", .text "é"), ("key", .text "F")] clef =
        .ok line ∧
      '\n' ∉ line.toList ∧ Json.parse line.toList = some (.map pairs) ∧
      Datum.get? "msg" pairs = some (.text clef.template) ∧
      Datum.get? "lvl" pairs = some (.text "é") ∧ Datum.get? "pid" pairs = some (.int 7) := by
  have htexts : ∀ entry ∈ [("lvl", Datum.text "é"), ("key", .text "F")],
      ∃ s, entry.2 = .text s := by
    simp
  obtain ⟨line, pairs, hline, hprintable, hparse, hget, -⟩ :=
    json_line_reads_back (f := ⟨true, false, true⟩) (r := clef) rfl rfl (by decide) htexts rfl rfl
  refine ⟨line, pairs, hline, ?_, hparse, ?_, ?_, ?_⟩
  · exact fun hmem => absurd (hprintable '\n' hmem) (by decide)
  · rw [hget]
    rfl
  · rw [hget]
    rfl
  · rw [hget]
    rfl

end Journal

end LoopPainter
