import LoopPainter.Gallery
import LoopPainter.Proofs.ReadOuts
import Mathlib.Data.List.Induction

/-!
# Galleries and their history

What a gallery shows follows from the commands that it was given, the refused ones among them.
`sizeAfter` and `colorAfter` tell it from the commands alone, the latest first: the color of a cell
is that of the last command that covered the cell, and a copy goes on with what its source had
shown before.

The ways in which a command can go are listed once (`Performed`).  From that list one more command
keeps a gallery in line with its history (`Recalls.perform`), so after any commands it is
(`recalls_after`), and what the next command answers follows (`follows_after`).
-/

namespace LoopPainter.Gallery

variable {g : Gallery} {history : List Command} {command : Command} {name : String} {x y : ℤ}

/-! ## What a history tells -/

/-- The canvas that a command reads. -/
def Command.source? : Command → Option String
  | .make .. => none
  | .get name .. | .set name .. | .fill name .. | .copy name _ => some name

/-- The canvas that a command puts in place. -/
def Command.target? : Command → Option String
  | .get .. => none
  | .make name .. | .set name .. | .fill name .. | .copy _ name => some name

/-- The width and the height of the canvas under a name, told by the commands, the latest first. -/
def sizeAfter (name : String) : List Command → Option (ℕ × ℕ)
  | [] => none
  | .make target width height _ :: earlier =>
    if target = name ∧ 0 < width ∧ 0 < height then some (width.toNat, height.toNat)
    else sizeAfter name earlier
  | .copy source target :: earlier =>
    if target = name ∧ (sizeAfter source earlier).isSome then sizeAfter source earlier
    else sizeAfter name earlier
  | .get .. :: earlier | .set .. :: earlier | .fill .. :: earlier => sizeAfter name earlier

/-- The color at `(x, y)` of the canvas under a name, told by the commands, the latest first.  A
`set` that was refused covers no cell: its coordinates were outside. -/
def colorAfter (name : String) (x y : ℤ) : List Command → Option Color
  | [] => none
  | .make target width height color :: earlier =>
    if target = name ∧ 0 < width ∧ 0 < height then some color else colorAfter name x y earlier
  | .set target x' y' color :: earlier =>
    if target = name ∧ x' = x ∧ y' = y then some color else colorAfter name x y earlier
  | .fill target color :: earlier =>
    if target = name then some color else colorAfter name x y earlier
  | .copy source target :: earlier =>
    if target = name ∧ (sizeAfter source earlier).isSome then colorAfter source x y earlier
    else colorAfter name x y earlier
  | .get .. :: earlier => colorAfter name x y earlier

/-- A command tells nothing about canvases that it does not put in place. -/
theorem sizeAfter_cons_of_ne (h : command.target? ≠ some name) :
    sizeAfter name (command :: history) = sizeAfter name history := by
  cases command <;> simp_all [sizeAfter, Command.target?]

theorem colorAfter_cons_of_ne (h : command.target? ≠ some name) :
    colorAfter name x y (command :: history) = colorAfter name x y history := by
  cases command <;> simp_all [colorAfter, Command.target?]

/-! ## What a command does -/

/-- What a command answers and the gallery that it leaves, one case for each way it can go. -/
inductive Performed (g : Gallery) : Command → Except Fault Answer × Gallery → Prop
  | made {name : String} {width height : ℤ} (hw : 0 < width) (hh : 0 < height) (color : Color) :
      Performed g (.make name width height color)
        (.ok .done, g.hang name
          (.blank width.toNat height.toNat (Int.pos_iff_toNat_pos.mp hw)
            (Int.pos_iff_toNat_pos.mp hh) color))
  | empty {name : String} {width height : ℤ} (h : ¬(0 < width ∧ 0 < height)) (color : Color) :
      Performed g (.make name width height color)
        (.error (.canvas (.emptySize width height)), g)
  | unknown {command : Command} {name : String} (hsource : command.source? = some name)
      (h : g.find? name = none) :
      Performed g command (.error (.unknownName name), g)
  | got {name : String} {c : Canvas} (h : g.find? name = some c) {x y : ℤ} (hin : c.Inside x y) :
      Performed g (.get name x y) (.ok (.cell (c.color x y hin)), g)
  | getOutside {name : String} {c : Canvas} (h : g.find? name = some c) {x y : ℤ}
      (hout : ¬c.Inside x y) :
      Performed g (.get name x y) (.error (.canvas (c.outside x y)), g)
  | put {name : String} {c : Canvas} (h : g.find? name = some c) {x y : ℤ} (hin : c.Inside x y)
      (color : Color) :
      Performed g (.set name x y color) (.ok .done, g.hang name (c.put x y hin color))
  | putOutside {name : String} {c : Canvas} (h : g.find? name = some c) {x y : ℤ}
      (hout : ¬c.Inside x y) (color : Color) :
      Performed g (.set name x y color) (.error (.canvas (c.outside x y)), g)
  | filled {name : String} {c : Canvas} (h : g.find? name = some c) (color : Color) :
      Performed g (.fill name color) (.ok .done, g.hang name (c.fill color))
  | copied {source : String} {c : Canvas} (h : g.find? source = some c) (target : String) :
      Performed g (.copy source target) (.ok .done, g.hang target c)

theorem find_of_find?_eq_none (h : g.find? name = none) :
    g.find name = .error (.unknownName name) := by
  rw [find, h]

theorem find_of_find?_eq_some {c : Canvas} (h : g.find? name = some c) : g.find name = .ok c := by
  rw [find, h]

theorem perform_of_find?_eq_none (hsource : command.source? = some name)
    (h : g.find? name = none) : g.perform command = (.error (.unknownName name), g) := by
  have hfind := find_of_find?_eq_none h
  cases command <;> cases hsource <;> simp only [perform, hfind]

/-- Every command goes one of the ways that are listed. -/
theorem performed (g : Gallery) (command : Command) :
    Performed g command (g.perform command) := by
  -- only `make` reads no canvas; all others are refused first of all if there is none to read
  cases hsource : command.source? with
  | none =>
      cases command with
      | make name width height color =>
          by_cases hpos : 0 < width ∧ 0 < height
          · simp only [perform, Canvas.make, dif_pos hpos]
            exact .made hpos.1 hpos.2 color
          · simp only [perform, Canvas.make, dif_neg hpos]
            exact .empty hpos color
      | _ => cases hsource
  | some name =>
      cases h : g.find? name with
      | none =>
          rw [perform_of_find?_eq_none hsource h]
          exact .unknown hsource h
      | some c =>
          have hfind := find_of_find?_eq_some h
          cases command with
          | make => cases hsource
          | get _ x y =>
              cases hsource
              by_cases hin : c.Inside x y
              · simp only [perform, hfind, Canvas.get_of_inside hin]
                exact .got h hin
              · simp only [perform, hfind, Canvas.get_of_not_inside hin]
                exact .getOutside h hin
          | set _ x y color =>
              cases hsource
              by_cases hin : c.Inside x y
              · simp only [perform, hfind, Canvas.set_of_inside hin]
                exact .put h hin color
              · simp only [perform, hfind, Canvas.set_of_not_inside hin]
                exact .putOutside h hin color
          | fill _ color =>
              cases hsource
              simp only [perform, hfind]
              exact .filled h color
          | copy _ target =>
              cases hsource
              simp only [perform, hfind]
              exact .copied h target

/-- A command that is refused leaves the gallery as it is. -/
theorem perform_of_refused {e : Fault} (h : (g.perform command).1 = .error e) :
    (g.perform command).2 = g := by
  have hperformed := g.performed command
  generalize g.perform command = result at hperformed h ⊢
  cases hperformed with
  | made | got | put | filled | copied => cases h
  | empty | unknown | getOutside | putOutside => rfl

/-- A command leaves every canvas alone that it does not put in place. -/
theorem find?_perform_of_ne (h : command.target? ≠ some name) :
    (g.perform command).2.find? name = g.find? name := by
  have hperformed := g.performed command
  generalize g.perform command = result at hperformed ⊢
  have hhang (target : String) (c : Canvas) (hne : some target ≠ some name) :
      (g.hang target c).find? name = g.find? name := by
    rw [find?_hang, if_neg fun heq => hne (congrArg some heq.symm)]
  cases hperformed with
  | made | put | filled | copied => exact hhang _ _ h
  | empty | unknown | got | getOutside | putOutside => rfl

/-! ## Galleries and histories in line -/

/-- A gallery shows what a history tells. -/
structure Recalls (g : Gallery) (history : List Command) : Prop where
  size (name : String) :
    (g.find? name).map (fun c => (c.width, c.height)) = sizeAfter name history
  color {name : String} {c : Canvas} (h : g.find? name = some c) {x y : ℤ} (hin : c.Inside x y) :
    colorAfter name x y history = some (c.color x y hin)

namespace Recalls

variable {c : Canvas}

theorem sizeAfter_eq_some (h : g.Recalls history) (hfind : g.find? name = some c) :
    sizeAfter name history = some (c.width, c.height) := by
  rw [← h.size, hfind]
  rfl

theorem sizeAfter_eq_none (h : g.Recalls history) (hfind : g.find? name = none) :
    sizeAfter name history = none := by
  rw [← h.size, hfind]
  rfl

theorem find?_eq_none (h : g.Recalls history) (hsize : sizeAfter name history = none) :
    g.find? name = none := by
  rwa [← h.size, Option.map_eq_none_iff] at hsize

theorem exists_find? (h : g.Recalls history) {width height : ℕ}
    (hsize : sizeAfter name history = some (width, height)) :
    ∃ c, g.find? name = some c ∧ c.width = width ∧ c.height = height := by
  rw [← h.size, Option.map_eq_some_iff] at hsize
  obtain ⟨c, hfind, heq⟩ := hsize
  exact ⟨c, hfind, congrArg Prod.fst heq, congrArg Prod.snd heq⟩

/-- A command that changes nothing keeps a gallery in line if it tells nothing about the cells. -/
theorem same (h : g.Recalls history)
    (hsize : ∀ name, sizeAfter name (command :: history) = sizeAfter name history)
    (hcolor : ∀ {name c}, g.find? name = some c → ∀ {x y}, c.Inside x y →
      colorAfter name x y (command :: history) = colorAfter name x y history) :
    g.Recalls (command :: history) where
  size name := (h.size name).trans (hsize name).symm
  color hfind _ _ hin := (hcolor hfind hin).trans (h.color hfind hin)

/-- A command that puts a canvas in place keeps a gallery in line if it tells of that canvas. -/
theorem hang (h : g.Recalls history) {target : String} (htarget : command.target? = some target)
    (hsize : sizeAfter target (command :: history) = some (c.width, c.height))
    (hcolor : ∀ {x y} (hin : c.Inside x y),
      colorAfter target x y (command :: history) = some (c.color x y hin)) :
    (g.hang target c).Recalls (command :: history) := by
  have hother {name : String} (hne : name ≠ target) : command.target? ≠ some name := by
    rw [htarget]
    exact fun heq => hne (Option.some.inj heq).symm
  constructor
  · intro name
    by_cases hname : name = target
    · rw [find?_hang, if_pos hname, hname, hsize]
      rfl
    · rw [find?_hang, if_neg hname, sizeAfter_cons_of_ne (hother hname), h.size]
  · intro name d hfind x y hin
    by_cases hname : name = target
    · subst hname
      rw [find?_hang, if_pos rfl] at hfind
      cases hfind
      exact hcolor hin
    · rw [find?_hang, if_neg hname] at hfind
      rw [colorAfter_cons_of_ne (hother hname), h.color hfind hin]

theorem unknown (h : g.Recalls history) (hsource : command.source? = some name)
    (hnone : g.find? name = none) : g.Recalls (command :: history) := by
  have hsize := h.sizeAfter_eq_none hnone
  apply h.same
  · intro other
    cases command <;> cases hsource <;> simp [sizeAfter, hsize]
  · intro other c hfind x y _
    -- what is there is not under the name that is unknown
    have hne : name ≠ other := by
      rintro rfl
      rw [hnone] at hfind
      cases hfind
    cases command <;> cases hsource <;> simp [colorAfter, hsize, hne]

theorem put (h : g.Recalls history) (hfind : g.find? name = some c) (hin : c.Inside x y)
    (color : Color) :
    (g.hang name (c.put x y hin color)).Recalls (.set name x y color :: history) := by
  have hsize := h.sizeAfter_eq_some hfind
  apply h.hang rfl
  · exact hsize
  · intro x' y' hin'
    have hinside : c.Inside x' y' := hin'
    by_cases hcell : x = x' ∧ y = y'
    · obtain ⟨rfl, rfl⟩ := hcell
      rw [Canvas.color_put_self]
      exact if_pos ⟨rfl, rfl, rfl⟩
    · have hkept : (c.put x y hin color).color x' y' hin' = c.color x' y' hinside :=
        Canvas.color_put_of_ne hinside hcell
      rw [hkept, ← h.color hfind hinside]
      exact if_neg fun hcovers => hcell hcovers.2

theorem putOutside (h : g.Recalls history) (hfind : g.find? name = some c)
    (hout : ¬c.Inside x y) (color : Color) : g.Recalls (.set name x y color :: history) := by
  apply h.same
  · intro other
    rfl
  · intro other d hfind' x' y' hin'
    -- the coordinates are outside, so they are not those of a cell
    apply if_neg
    rintro ⟨rfl, rfl, rfl⟩
    rw [hfind] at hfind'
    cases hfind'
    exact hout hin'

/-- One more command, refused or not, keeps a gallery in line with its history. -/
theorem perform (h : g.Recalls history) (command : Command) :
    (g.perform command).2.Recalls (command :: history) := by
  have hperformed := g.performed command
  generalize g.perform command = result at hperformed ⊢
  cases hperformed with
  | made hw hh color =>
      apply h.hang rfl
      · exact if_pos ⟨rfl, hw, hh⟩
      · intro x y hin
        rw [Canvas.color_blank]
        exact if_pos ⟨rfl, hw, hh⟩
  | empty hempty color =>
      apply h.same
      · intro name
        exact if_neg fun hmade => hempty hmade.2
      · intro name c _ x y _
        exact if_neg fun hmade => hempty hmade.2
  | unknown hsource hnone => exact h.unknown hsource hnone
  | got _ hin => exact h.same (fun _ => rfl) fun _ _ _ _ => rfl
  | getOutside _ hout => exact h.same (fun _ => rfl) fun _ _ _ _ => rfl
  | put hfind hin color => exact h.put hfind hin color
  | putOutside hfind hout color => exact h.putOutside hfind hout color
  | @filled name c hfind color =>
      have hsize := h.sizeAfter_eq_some hfind
      apply h.hang rfl
      · exact hsize
      · intro x y hin
        have hfilled : (c.fill color).color x y hin = color := Canvas.color_blank
        rw [hfilled]
        exact if_pos rfl
  | copied hfind target =>
      -- what is known of the source before is all that is known of the copy
      have hsize := h.sizeAfter_eq_some hfind
      have hsome := Option.isSome_of_eq_some hsize
      apply h.hang rfl
      · exact (if_pos ⟨rfl, hsome⟩).trans hsize
      · intro x y hin
        exact (if_pos ⟨rfl, hsome⟩).trans (h.color hfind hin)

end Recalls

/-! ## After any commands -/

/-- The gallery after commands, which go on when one of them is refused. -/
def after (commands : List Command) : Gallery :=
  commands.foldl (fun g command => (g.perform command).2) {}

theorem recalls_after (commands : List Command) : (after commands).Recalls commands.reverse := by
  induction commands using List.reverseRecOn with
  | nil => exact ⟨fun _ => rfl, nofun⟩
  | append_singleton commands command ih =>
      rw [after, List.foldl_append, List.reverse_concat]
      exact ih.perform command

/-- How a gallery with a history takes the next command. -/
structure Follows (g : Gallery) (history : List Command) : Prop where
  unknown {name : String} (h : sizeAfter name history = none) {command : Command}
    (hsource : command.source? = some name) :
    g.perform command = (.error (.unknownName name), g)
  inside {name : String} {width height : ℕ} (h : sizeAfter name history = some (width, height))
    {x y : ℤ} (hin : 0 ≤ x ∧ x < width ∧ 0 ≤ y ∧ y < height) :
    (∃ color, colorAfter name x y history = some color ∧
      g.perform (.get name x y) = (.ok (.cell color), g)) ∧
    ∀ ink, (g.perform (.set name x y ink)).1 = .ok .done
  outside {name : String} {width height : ℕ} (h : sizeAfter name history = some (width, height))
    {x y : ℤ} (hout : ¬(0 ≤ x ∧ x < width ∧ 0 ≤ y ∧ y < height)) :
    g.perform (.get name x y) = (.error (.canvas (.outside x y width height)), g) ∧
    ∀ ink, g.perform (.set name x y ink) = (.error (.canvas (.outside x y width height)), g)
  refused {command : Command} {e : Fault} (h : (g.perform command).1 = .error e) :
    (g.perform command).2 = g
  others {command : Command} {name : String} (h : command.target? ≠ some name) :
    (g.perform command).2.find? name = g.find? name
  readsOut {name : String} {c : Canvas} (h : g.find? name = some c) : c.ReadsOut

theorem Recalls.follows (h : g.Recalls history) : g.Follows history where
  unknown hsize _ hsource := perform_of_find?_eq_none hsource (h.find?_eq_none hsize)
  inside {name _ _} hsize {x y} hin := by
    obtain ⟨c, hfind, rfl, rfl⟩ := h.exists_find? hsize
    have hinside : c.Inside x y := hin
    refine ⟨⟨c.color x y hinside, h.color hfind hinside, ?_⟩, fun ink => ?_⟩
    · simp only [Gallery.perform, find_of_find?_eq_some hfind, Canvas.get_of_inside hinside]
    · simp only [Gallery.perform, find_of_find?_eq_some hfind, Canvas.set_of_inside hinside]
  outside {name _ _} hsize {x y} hout := by
    obtain ⟨c, hfind, rfl, rfl⟩ := h.exists_find? hsize
    have houtside : ¬c.Inside x y := hout
    refine ⟨?_, fun ink => ?_⟩
    · simp only [Gallery.perform, find_of_find?_eq_some hfind, Canvas.get_of_not_inside houtside,
        Canvas.outside]
    · simp only [Gallery.perform, find_of_find?_eq_some hfind, Canvas.set_of_not_inside houtside,
        Canvas.outside]
  refused := perform_of_refused
  others := find?_perform_of_ne
  readsOut {_ c} _ := c.readsOut

/-- After any commands on any number of canvases, those that were refused included, a gallery
follows the history of its commands: `get` answers the color of the last command that covered the
cell, coordinates outside are refused and change nothing, and no command changes another canvas than
its own.  Two canvases are the same exactly if their sizes and all their cells are. -/
theorem follows_after (commands : List Command) :
    (after commands).Follows commands.reverse ∧
      ∀ c d : Canvas, (c == d) = true ↔ c.width = d.width ∧ c.height = d.height ∧
        ∀ x y, c.Inside x y → c.get x y = d.get x y :=
  ⟨(recalls_after commands).follows, fun _ _ => beq_iff_eq.trans Canvas.eq_iff_get⟩

/-- A copy keeps what its source had shown when it was made. -/
example : colorAfter "copy" 1 0
    [.set "main" 1 0 .red, .copy "main" "copy", .set "main" 1 0 .green, .make "main" 2 1 .white] =
      some .green := by
  decide

end LoopPainter.Gallery
