import Mathlib.Data.Option.Basic
import Moorland.Proofs.Configuration.Faults
/-!
# Variants of a configuration file

Three values of a configuration have no part in what a run comes to: how many generations are kept,
which pixels a stamp skips, and how many steps there are between summaries. Two configurations that
differ in nothing else **run alike** (`Moorland.Configuration.RunsAlike`).

A **variant** of a file has other valid values in place of these three, or leaves them out, or adds
them (`Moorland.FileContent.Variant`). Everything else is as before, in whatever order, and may be
wrong. So a file and its variant either give configurations that run alike, or fail for the same
reason (`Moorland.FileContent.Variant.sameOutcome`).
-/

namespace Moorland

/-! ### Outcomes -/

/-- **Two outcomes are the same failure, or successes that are related.** -/
inductive SameOutcome {ε α : Type} (r : α → α → Prop) : Except ε α → Except ε α → Prop
  /-- Both fail, and for the same reason. -/
  | error (e : ε) : SameOutcome r (.error e) (.error e)
  /-- Both succeed. -/
  | ok {a b : α} (h : r a b) : SameOutcome r (.ok a) (.ok b)

namespace SameOutcome

variable {ε δ α β : Type} {r : α → α → Prop} {q : β → β → Prop} {x y : Except ε α}

theorem refl (hr : ∀ a, r a a) (x : Except ε α) : SameOutcome r x x := by
  cases x with
  | error e => exact .error e
  | ok a => exact .ok (hr a)

theorem mapError (h : SameOutcome r x y) (f : ε → δ) :
    SameOutcome r (x.mapError f) (y.mapError f) := by
  cases h with
  | error e => exact .error (f e)
  | ok h => exact .ok h

theorem map (h : SameOutcome r x y) {f g : α → β} (hf : ∀ a b, r a b → q (f a) (g b)) :
    SameOutcome q (x.map f) (y.map g) := by
  cases h with
  | error e => exact .error e
  | ok h => exact .ok (hf _ _ h)

/-- **What does not tell related values apart** goes on to the same outcome. -/
theorem bind_eq (h : SameOutcome r x y) {f g : α → Except ε β}
    (hf : ∀ a b, x = .ok a → r a b → f a = g b) : (x >>= f) = (y >>= g) := by
  cases h with
  | error e => rfl
  | ok h => exact hf _ _ rfl h

end SameOutcome

/-- What is done to a success can be left to what comes next. -/
theorem mapError_map_bind {ε δ α β γ : Type} (x : Except ε α) (k : α → β) (f : ε → δ)
    (g : β → Except δ γ) : ((x.map k).mapError f >>= g) = (x.mapError f >>= fun a => g (k a)) := by
  rcases x with e | a
  · rfl
  · rfl

/-- **Related options lead to related options**, if what comes next relates them. -/
theorem rel_bind {α β : Type} {r : α → α → Prop} {q : β → β → Prop} {x y : Option α}
    {f g : α → Option β} (h : Option.Rel r x y)
    (hf : ∀ a b, r a b → Option.Rel q (f a) (g b)) : Option.Rel q (x.bind f) (y.bind g) := by
  cases h with
  | some h => exact hf _ _ h
  | none => exact .none

theorem rel_refl {α : Type} {r : α → α → Prop} (hr : ∀ a, r a a) (x : Option α) :
    Option.Rel r x x := by
  cases x with
  | none => exact .none
  | some a => exact .some (hr a)

/-! ### Changing a value -/

namespace Document

variable {α : Type} {read : Document → Option α} {P : α → Prop} {name : String}
  {es fs : List (String × Document)}

/-- **A value may have been changed for another valid one.** Under a name the entries have the same
value, or neither has one, or else each value that there is is read as one with a property. -/
def MayChange (read : Document → Option α) (P : α → Prop) (name : String)
    (es fs : List (String × Document)) : Prop :=
  find? name fs = find? name es ∨
    ∀ d, d ∈ find? name es ∨ d ∈ find? name fs → ∃ a, read d = some a ∧ P a

/-- A valid value may be added. -/
theorem MayChange.of_added (hes : find? name es = none) {d : Document}
    (hfs : find? name fs = some d) {a : α} (hd : read d = some a) (ha : P a) :
    MayChange read P name es fs := by
  refine .inr fun e he => ?_
  rcases he with he | he
  · rw [hes] at he
    cases he
  · rw [hfs] at he
    obtain rfl := Option.some.inj he
    exact ⟨a, hd, ha⟩

theorem withDefault_congr (h : find? name fs = find? name es) (default : α) :
    withDefault default read name fs = withDefault default read name es := by
  rw [withDefault, withDefault, h]

/-- A field is read as a valid value if it has one, or else has a valid default. -/
theorem exists_withDefault {default : α} (hdefault : P default)
    (h : ∀ d ∈ find? name es, ∃ a, read d = some a ∧ P a) :
    ∃ a, withDefault default read name es = some a ∧ P a := by
  rw [withDefault]
  split
  · exact ⟨default, rfl, hdefault⟩
  · next d hd => exact h d hd

/-- **A value that may have been changed** is read on both sides or on neither, as values between
which the change makes no difference. -/
theorem MayChange.rel {r : α → α → Prop} (h : MayChange read P name es fs) (default : α)
    (hdefault : P default) (hr : ∀ a, r a a) (hP : ∀ a b, P a → P b → r a b) :
    Option.Rel r (withDefault default read name es) (withDefault default read name fs) := by
  rcases h with heq | hvalid
  · rw [withDefault_congr heq]
    exact rel_refl hr _
  · obtain ⟨a, ha, hPa⟩ := exists_withDefault hdefault fun d hd => hvalid d (.inl hd)
    obtain ⟨b, hb, hPb⟩ := exists_withDefault hdefault fun d hd => hvalid d (.inr hd)
    rw [ha, hb]
    exact .some (hP a b hPa hPb)

end Document

open Document

/-! ### Grid sections -/

variable {es fs : List (String × Document)}

/-- **The modes of a grid section may have been changed**, and nothing else. -/
structure GridSection.Variant (es fs : List (String × Document)) : Prop where
  /-- What is not a mode is as before. -/
  find?_eq : ∀ name, name ≠ "buffering" → name ≠ "stamp_mode" → find? name fs = find? name es
  /-- How many generations are kept. -/
  buffering : MayChange (BufferMode.read? .toml) (fun _ => True) "buffering" es fs
  /-- Which pixels a stamp skips. -/
  stampMode : MayChange (StampMode.read? .toml) (fun _ => True) "stamp_mode" es fs

/-- **A variant of a grid section has the same size.** -/
theorem GridSection.Variant.rel_read? (h : GridSection.Variant es fs) :
    Option.Rel (fun g k : GridSection => k.width = g.width ∧ k.height = g.height)
      (GridSection.read? .toml (.table es)) (GridSection.read? .toml (.table fs)) := by
  have hmode := h.buffering.rel (r := fun _ _ => True) GridSection.standard.buffering trivial
    (fun _ => trivial) fun _ _ _ _ => trivial
  have hstamp := h.stampMode.rel (r := fun _ _ => True) GridSection.standard.stampMode trivial
    (fun _ => trivial) fun _ _ _ _ => trivial
  simp only [GridSection.read?, fields?, Option.bind_eq_bind, Option.bind_some,
    withDefault_congr (h.find?_eq "width" (by decide) (by decide)),
    withDefault_congr (h.find?_eq "height" (by decide) (by decide))]
  refine rel_bind (rel_refl (r := Eq) (fun _ => rfl) _) ?_
  rintro width _ rfl
  refine rel_bind (rel_refl (r := Eq) (fun _ => rfl) _) ?_
  rintro height _ rfl
  exact rel_bind hmode fun _ _ _ => rel_bind hstamp fun _ _ _ => .some ⟨rfl, rfl⟩

/-! ### Configurations -/

namespace Configuration

/-- **Two configurations run alike**: they are the same but for how many generations are kept, which
pixels a stamp skips, and the interval of the summaries, which both have or neither has. -/
structure RunsAlike (c d : Configuration) : Prop where
  /-- The number of columns. -/
  width_eq : d.grid.width = c.grid.width
  /-- The number of rows. -/
  height_eq : d.grid.height = c.grid.height
  /-- The thresholds. -/
  thresholds_eq : d.thresholds = c.thresholds
  /-- The intensity. -/
  init_eq : d.init = c.init
  /-- The seed. -/
  seed_eq : d.seed = c.seed
  /-- There is an interval, or there is none. -/
  interval_iff : d.logInterval = 0 ↔ c.logInterval = 0

theorem RunsAlike.refl (c : Configuration) : RunsAlike c c := ⟨rfl, rfl, rfl, rfl, rfl, .rfl⟩

theorem RunsAlike.fault?_eq {c d : Configuration} (h : RunsAlike c d) : d.fault? = c.fault? :=
  fault?_congr h.width_eq h.height_eq h.thresholds_eq h.init_eq h.interval_iff

/-- The fields of the grid section of a configuration, none of them if it has no such section. -/
def gridFields? (es : List (String × Document)) : Option (List (String × Document)) :=
  match find? "grid" es with
  | none => some []
  | some d => d.fields? .toml ["width", "height", "buffering", "stamp_mode"]

/-- **A grid section that is not there** is read like one with nothing in it. -/
theorem withDefault_grid (es : List (String × Document)) :
    withDefault GridSection.standard (GridSection.read? .toml) "grid" es =
      (gridFields? es).bind fun gs => GridSection.read? .toml (.table gs) := by
  rw [withDefault, gridFields?]
  rcases find? "grid" es with _ | d
  · rfl
  · rfl

/-- **The modes and the interval of a configuration may have been changed**, and nothing else. -/
structure Variant (es fs : List (String × Document)) : Prop where
  /-- What is not about the grid or the interval is as before. -/
  find?_eq : ∀ name, name ≠ "grid" → name ≠ "log_interval" → find? name fs = find? name es
  /-- The grid section. -/
  grid : find? "grid" fs = find? "grid" es ∨ ∃ gs hs, gridFields? es = some gs ∧
    gridFields? fs = some hs ∧ GridSection.Variant gs hs
  /-- The interval of the summaries. -/
  logInterval : MayChange word? (· ≠ 0) "log_interval" es fs

namespace Variant

theorem rel_grid (h : Variant es fs) :
    Option.Rel (fun g k : GridSection => k.width = g.width ∧ k.height = g.height)
      (withDefault standard.grid (GridSection.read? .toml) "grid" es)
      (withDefault standard.grid (GridSection.read? .toml) "grid" fs) := by
  rcases h.grid with heq | ⟨gs, hs, hgs, hhs, hvariant⟩
  · rw [withDefault_congr heq]
    exact rel_refl (fun _ => ⟨rfl, rfl⟩) _
  · have hes := withDefault_grid es
    have hfs := withDefault_grid fs
    rw [hgs, Option.bind_some] at hes
    rw [hhs, Option.bind_some] at hfs
    exact hes ▸ hfs ▸ hvariant.rel_read?

/-- **A variant of a configuration runs alike**, if it is one at all. -/
theorem rel_read? (h : Variant es fs) :
    Option.Rel RunsAlike (read? .toml (.table es)) (read? .toml (.table fs)) := by
  have hinterval := h.logInterval.rel (r := fun m n => n = 0 ↔ m = 0) standard.logInterval
    (by decide) (fun _ => .rfl) fun m n hm hn => iff_of_false hn hm
  simp only [read?, fields?, Option.bind_eq_bind, Option.bind_some,
    withDefault_congr (h.find?_eq "thresholds" (by decide) (by decide)),
    withDefault_congr (h.find?_eq "init" (by decide) (by decide)),
    withDefault_congr (h.find?_eq "seed" (by decide) (by decide))]
  refine rel_bind h.rel_grid fun g k hgrid => ?_
  refine rel_bind (rel_refl (r := Eq) (fun _ => rfl) _) ?_
  rintro thresholds _ rfl
  refine rel_bind (rel_refl (r := Eq) (fun _ => rfl) _) ?_
  rintro init _ rfl
  refine rel_bind (rel_refl (r := Eq) (fun _ => rfl) _) ?_
  rintro seed _ rfl
  exact rel_bind hinterval fun m n hiff => .some ⟨hgrid.1, hgrid.2, rfl, rfl, rfl, hiff⟩

end Variant

end Configuration

/-! ### Files -/

namespace FileContent

/-- **One content of a file is a variant of another**: they are the same, or the documents of their
texts differ in modes and intervals that are valid. -/
inductive Variant : FileContent → FileContent → Prop
  /-- Nothing has been changed. -/
  | refl (f : FileContent) : Variant f f
  /-- The document of the one text is a variant of that of the other. -/
  | text {s t : String} {es fs : List (String × Document)} (hs : Toml.read? s = some (.table es))
    (ht : Toml.read? t = some (.table fs)) (h : Configuration.Variant es fs) :
    Variant (.text s) (.text t)

/-- **A file and its variant** give configurations that run alike, or fail for the same reason. -/
theorem Variant.sameOutcome {f g : FileContent} (h : Variant f g) (path : String) :
    SameOutcome Configuration.RunsAlike (Configuration.ofFile path f)
      (Configuration.ofFile path g) := by
  cases h with
  | refl => exact .refl Configuration.RunsAlike.refl _
  | text hs ht h =>
    refine SameOutcome.mapError ?_ _
    rw [Configuration.ofToml, Configuration.ofToml, hs, ht, Option.bind_some, Option.bind_some]
    have hread := h.rel_read?
    generalize Configuration.read? .toml (.table _) = x at hread ⊢
    generalize Configuration.read? .toml (.table _) = y at hread ⊢
    cases hread with
    | none => exact .error _
    | some halike =>
      refine SameOutcome.mapError ?_ _
      rw [Configuration.check, Configuration.check, halike.fault?_eq]
      -- both pass the check, or both have the same fault
      split
      · exact .error _
      · exact .ok halike

end FileContent

end Moorland
