import Mathlib.Data.Option.Basic
import Moorland.Proofs.Configuration.Faults
/-!
# Merging over the defaults

A configuration file need not give all values. This file says what a **part** of a configuration is
(`Moorland.ConfigurationPart`), when the entries of a document write it down, in whatever order and
beside whatever other names (`Moorland.ConfigurationPart.WrittenIn`), and what it is to lay it over
a configuration (`Moorland.ConfigurationPart.onto`).

Each section is read by itself, and a name that is missing falls back to the default value – except
in the section of the intensity. That one is either missing as a whole or must give all three
channels; to give some of them, or none, is an error of the document and not of its values. By
`Moorland.Configuration.ofToml_merges_iff` this is the only exception: a text gives the default
configuration with its values laid over, if that passes the check, exactly if the section of the
intensity is complete or missing, or the merged configuration has a fault anyway.
`Moorland.Configuration.incomplete_init_refused` is a text for which the exception shows.
-/

namespace Moorland

namespace Document

/-! ### Values that are written down -/

/-- **The document writes down a number**, as a number or as an integer. -/
inductive WritesSingle : Document → Float32 → Prop
  /-- A number in double precision stands for the nearest one in single precision. -/
  | number (v : Float) : WritesSingle (.number v) (narrow v)
  /-- An integer stands for the nearest number too. -/
  | integer (n : Int) : WritesSingle (.integer n) (Float32.ofInt n)

/-- **The document writes down a natural number of 64 bits.** -/
inductive WritesWord : Document → UInt64 → Prop
  /-- It does so as an integer. -/
  | integer (n : UInt64) : WritesWord (.integer n.toNat) n

/-- **The document writes down a size**, which fits in 64 bits. -/
inductive WritesSize : Document → Nat → Prop
  /-- It does so as an integer. -/
  | integer {n : Nat} (hn : n < UInt64.size) : WritesSize (.integer n) n

/-- **The document writes down a value by its name.** -/
inductive WritesName {α : Type} (nameOf : α → String) : Document → α → Prop
  /-- It does so as a text. -/
  | text (a : α) : WritesName nameOf (.text (nameOf a)) a

/-- **The document writes down a value as a table** whose entries write down its fields. -/
inductive WritesTable {α : Type} (writtenIn : α → List (String × Document) → Prop) :
    Document → α → Prop
  /-- The entries of the table are those of the value. -/
  | table {a : α} {es : List (String × Document)} (ha : writtenIn a es) :
      WritesTable writtenIn (.table es) a

variable {α : Type} {writes : Document → α → Prop} {read : Document → Option α}
  {name : String} {es : List (String × Document)} {o : Option α}

/-- **Entries write down a value under a name, or neither is there.** -/
def Gives (writes : Document → α → Prop) (name : String) (es : List (String × Document))
    (o : Option α) : Prop := Option.Rel writes (find? name es) o

theorem word?_of_writes (d : Document) (n : UInt64) (h : WritesWord d n) : d.word? = some n := by
  cases h
  have hn : (0 : Int) ≤ n.toNat ∧ (n.toNat : Int) < UInt64.size := by
    have := n.toNat_lt_size
    omega
  rw [word?, if_pos hn, Int.toNat_natCast, UInt64.ofNat_toNat]

theorem size?_of_writes (d : Document) (n : Nat) (h : WritesSize d n) : d.size? = some n := by
  cases h with
  | integer hn =>
    have hword : (Document.integer n).word? = some (.ofNat n) := by
      rw [word?, if_pos (by omega), Int.toNat_natCast]
    rw [size?, hword, Option.map_some, UInt64.toNat_ofNat_of_lt' hn]

theorem single?_of_writes (d : Document) (v : Float32) (h : WritesSingle d v) :
    d.single? = some v := by
  cases h <;> rfl

/-- **A name is read as the value** that has the name, in every format. -/
theorem choice?_of_writes {nameOf : α → String} {ofName? : String → Option α}
    (hname : ∀ a, ofName? (nameOf a) = some a) (dialect : Dialect) {d : Document} {a : α}
    (h : WritesName nameOf d a) : d.choice? dialect ofName? = some a := by
  cases h
  exact hname a

namespace Gives

/-- **A field with a default** is read from the value that is given, or else has the default. -/
theorem withDefault_eq_elim {β : Type} (h : Gives writes name es o) {read : Document → Option β}
    {f : α → Option β} (hread : ∀ d a, writes d a → read d = f a) (default : β) :
    Document.withDefault default read name es = o.elim (some default) f := by
  rw [Document.withDefault]
  rw [Gives] at h
  generalize find? name es = found at h ⊢
  cases h with
  | none => rfl
  | some hd => exact hread _ _ hd

theorem withDefault (h : Gives writes name es o) (hread : ∀ d a, writes d a → read d = some a)
    (default : α) : Document.withDefault default read name es = some (o.getD default) := by
  rw [h.withDefault_eq_elim hread]
  cases o <;> rfl

theorem optional (h : Gives writes name es o)
    (hread : ∀ d a, writes d a → optional? read d = some (some a)) (default : Option α) :
    Document.withDefault default (optional? read) name es = some (o.or default) := by
  rw [h.withDefault_eq_elim hread]
  cases o <;> rfl

/-- **A section with defaults** has those of its values that are given. -/
theorem table {β : Type} {writtenIn : α → List (String × Document) → Prop}
    (h : Gives (WritesTable writtenIn) name es o) {read : Document → Option β} {f : α → Option β}
    (hread : ∀ a es, writtenIn a es → read (.table es) = f a) (default : β) :
    Document.withDefault default read name es = o.elim (some default) f :=
  h.withDefault_eq_elim (fun _ _ hd => by
    obtain ⟨ha⟩ := hd
    exact hread _ _ ha) default

/-- **A required field** has the value that is given, if any. -/
theorem required (h : Gives writes name es o) (hread : ∀ d a, writes d a → read d = some a) :
    Document.required read name es = o := by
  rw [Document.required]
  rw [Gives] at h
  generalize find? name es = found at h ⊢
  cases h with
  | none => rfl
  | some hd => exact hread _ _ hd

end Gives

end Document

open Document

/-! ### Parts -/

/-- **A part of a grid section.** -/
structure GridPart where
  /-- The number of columns, if it is given. -/
  width : Option Nat
  /-- The number of rows. -/
  height : Option Nat
  /-- How many generations are kept. -/
  buffering : Option BufferMode
  /-- Which pixels a stamp skips. -/
  stampMode : Option StampMode

/-- **A part of a section of thresholds.** -/
structure ThresholdPart where
  /-- The lower threshold, if it is given. -/
  lower : Option Float32
  /-- The upper threshold. -/
  upper : Option Float32
  /-- The preset. -/
  preset : Option Preset

/-- **A part of an intensity.** -/
structure IntensityPart where
  /-- The scale of the red channel, if it is given. -/
  red : Option Float32
  /-- The scale of the green channel. -/
  green : Option Float32
  /-- The scale of the blue channel. -/
  blue : Option Float32

/-- **A part of a configuration.** A section may be missing, or be there with any of its values. -/
structure ConfigurationPart where
  /-- The grid section, if it is there. -/
  grid : Option GridPart
  /-- The section of thresholds. -/
  thresholds : Option ThresholdPart
  /-- The section of the intensity. -/
  init : Option IntensityPart
  /-- The seed. -/
  seed : Option UInt64
  /-- The number of steps between summaries. -/
  logInterval : Option UInt64

namespace GridPart

/-- A grid section with the values of a part in place of its own. -/
def onto (p : GridPart) (g : GridSection) : GridSection :=
  ⟨p.width.getD g.width, p.height.getD g.height, p.buffering.getD g.buffering,
    p.stampMode.getD g.stampMode⟩

/-- **Entries write down a part of a grid section.** -/
structure WrittenIn (p : GridPart) (es : List (String × Document)) : Prop where
  /-- The number of columns. -/
  width : Gives WritesSize "width" es p.width
  /-- The number of rows. -/
  height : Gives WritesSize "height" es p.height
  /-- The mode, by its name. -/
  buffering : Gives (WritesName BufferMode.name) "buffering" es p.buffering
  /-- The stamp mode, by its name. -/
  stampMode : Gives (WritesName StampMode.name) "stamp_mode" es p.stampMode

end GridPart

namespace ThresholdPart

/-- A section of thresholds with the values of a part in place of its own. -/
def onto (p : ThresholdPart) (t : ThresholdSection) : ThresholdSection :=
  ⟨p.lower.getD t.lower, p.upper.getD t.upper, p.preset.or t.preset⟩

/-- **Entries write down a part of a section of thresholds.** -/
structure WrittenIn (p : ThresholdPart) (es : List (String × Document)) : Prop where
  /-- The lower threshold. -/
  lower : Gives WritesSingle "under" es p.lower
  /-- The upper threshold. -/
  upper : Gives WritesSingle "over" es p.upper
  /-- The preset, by its name. -/
  preset : Gives (WritesName Preset.name) "preset" es p.preset

end ThresholdPart

namespace IntensityPart

/-- An intensity with the values of a part in place of its own. -/
def onto (p : IntensityPart) (i : Intensity) : Intensity :=
  ⟨p.red.getD i.red, p.green.getD i.green, p.blue.getD i.blue⟩

/-- **The part is the whole**: it gives all channels. -/
def isComplete (p : IntensityPart) : Bool := p.red.isSome && p.green.isSome && p.blue.isSome

/-- **Entries write down a part of an intensity.** -/
structure WrittenIn (p : IntensityPart) (es : List (String × Document)) : Prop where
  /-- The scale of the red channel. -/
  red : Gives WritesSingle "red" es p.red
  /-- The scale of the green channel. -/
  green : Gives WritesSingle "green" es p.green
  /-- The scale of the blue channel. -/
  blue : Gives WritesSingle "blue" es p.blue

end IntensityPart

namespace ConfigurationPart

/-- **A configuration with the values of a part in place of its own.** -/
def onto (p : ConfigurationPart) (c : Configuration) : Configuration where
  grid := p.grid.elim c.grid fun g => g.onto c.grid
  thresholds := p.thresholds.elim c.thresholds fun t => t.onto c.thresholds
  init := p.init.elim c.init fun i => i.onto c.init
  seed := p.seed.or c.seed
  logInterval := p.logInterval.getD c.logInterval

/-- **The section of the intensity is complete or missing.** -/
def hasWholeInit (p : ConfigurationPart) : Bool := p.init.all IntensityPart.isComplete

/-- **Entries write down a part of a configuration**: values under their names, and sections as
tables. Names that belong to no value may be there too. -/
structure WrittenIn (p : ConfigurationPart) (es : List (String × Document)) : Prop where
  /-- The grid section. -/
  grid : Gives (WritesTable GridPart.WrittenIn) "grid" es p.grid
  /-- The section of thresholds. -/
  thresholds : Gives (WritesTable ThresholdPart.WrittenIn) "thresholds" es p.thresholds
  /-- The section of the intensity. -/
  init : Gives (WritesTable IntensityPart.WrittenIn) "init" es p.init
  /-- The seed. -/
  seed : Gives WritesWord "seed" es p.seed
  /-- The interval of the summaries. -/
  logInterval : Gives WritesWord "log_interval" es p.logInterval

end ConfigurationPart

/-! ### Reading parts -/

variable {es : List (String × Document)}

/-- **A grid section falls back to its defaults.** -/
theorem GridPart.WrittenIn.read?_eq {p : GridPart} (h : p.WrittenIn es) (dialect : Dialect) :
    GridSection.read? dialect (.table es) = some (p.onto .standard) := by
  have hmode : ∀ d m, WritesName BufferMode.name d m → BufferMode.read? dialect d = some m :=
    fun _ _ => choice?_of_writes BufferMode.ofName?_name dialect
  have hstamp : ∀ d m, WritesName StampMode.name d m → StampMode.read? dialect d = some m :=
    fun _ _ => choice?_of_writes StampMode.ofName?_name dialect
  simp only [GridSection.read?, fields?, Option.bind_eq_bind, Option.bind_some,
    h.width.withDefault size?_of_writes, h.height.withDefault size?_of_writes,
    h.buffering.withDefault hmode, h.stampMode.withDefault hstamp]
  rfl

/-- **A section of thresholds falls back to its defaults.** -/
theorem ThresholdPart.WrittenIn.read?_eq {p : ThresholdPart} (h : p.WrittenIn es)
    (dialect : Dialect) :
    ThresholdSection.read? dialect (.table es) = some (p.onto .standard) := by
  have hpreset : ∀ d p, WritesName Preset.name d p →
      optional? (Preset.read? dialect) d = some (some p) := by
    rintro _ p ⟨⟩
    exact congrArg (Option.map some) (Preset.ofName?_name p)
  simp only [ThresholdSection.read?, fields?, Option.bind_eq_bind, Option.bind_some,
    h.lower.withDefault single?_of_writes, h.upper.withDefault single?_of_writes,
    h.preset.optional hpreset]
  rfl

/-- **An intensity does not fall back**: it is read only if it is complete. -/
theorem IntensityPart.WrittenIn.read?_eq {p : IntensityPart} (h : p.WrittenIn es)
    (dialect : Dialect) (i : Intensity) :
    Intensity.read? dialect (.table es) = if p.isComplete then some (p.onto i) else none := by
  simp only [Intensity.read?, readTriple?, fields?, Option.bind_eq_bind, Option.bind_some,
    h.red.required single?_of_writes, h.green.required single?_of_writes,
    h.blue.required single?_of_writes, isComplete, onto]
  obtain ⟨red, green, blue⟩ := p
  -- one missing channel is enough
  rcases red with _ | red
  · rfl
  rcases green with _ | green
  · rfl
  rcases blue with _ | blue
  · rfl
  · rfl

/-- **A configuration is read as the default one with the part laid over**, unless its section of
the intensity is there and not complete. -/
theorem ConfigurationPart.WrittenIn.read?_eq {p : ConfigurationPart} (h : p.WrittenIn es)
    (dialect : Dialect) :
    Configuration.read? dialect (.table es) =
      if p.hasWholeInit then some (p.onto .standard) else none := by
  have hseed : ∀ d n, WritesWord d n → optional? word? d = some (some n) := by
    intro d n hn
    have hd := word?_of_writes d n hn
    obtain ⟨n⟩ := hn
    rw [optional?, hd, Option.map_some]
    exact nofun
  have hgrid : (p.grid.elim (some Configuration.standard.grid) fun g => some (g.onto .standard)) =
      some (p.onto .standard).grid := by
    rw [onto]
    cases p.grid <;> rfl
  have hthresholds : (p.thresholds.elim (some Configuration.standard.thresholds) fun t =>
      some (t.onto .standard)) = some (p.onto .standard).thresholds := by
    rw [onto]
    cases p.thresholds <;> rfl
  have hinit : (p.init.elim (some Configuration.standard.init) fun i =>
      if i.isComplete then some (i.onto .full) else none) =
        if p.hasWholeInit then some (p.onto .standard).init else none := by
    rw [hasWholeInit, onto]
    cases p.init <;> rfl
  simp only [Configuration.read?, fields?, Option.bind_eq_bind, Option.bind_some,
    h.grid.table (fun _ _ hp => hp.read?_eq dialect),
    h.thresholds.table (fun _ _ hp => hp.read?_eq dialect),
    h.init.table (fun _ _ hp => hp.read?_eq dialect .full), h.seed.optional hseed,
    h.logInterval.withDefault word?_of_writes, hgrid, hthresholds, hinit]
  rcases p.hasWholeInit with _ | _
  · rfl
  · rfl

namespace Configuration

variable {text : String} {p : ConfigurationPart}

/-- **What a text gives** whose document writes down a part of a configuration. -/
theorem ofToml_eq (ht : Toml.read? text = some (.table es)) (hp : p.WrittenIn es) :
    ofToml text =
      if p.hasWholeInit then (p.onto .standard).check.mapError .faulty else .error .malformed := by
  rw [ofToml, ht, Option.bind_some, hp.read?_eq]
  rcases p.hasWholeInit with _ | _
  · rfl
  · rfl

/-- **Missing values fall back to the defaults, but not those of an intensity.** A text whose
document writes down a part of a configuration gives the default configuration with that part laid
over – if this passes the check, and nothing otherwise – exactly if the section of the intensity is
complete or missing, or the merged configuration has a fault, so that there is nothing to give. With
a section of the intensity that is not complete, the text is refused as malformed. -/
theorem ofToml_merges_iff (ht : Toml.read? text = some (.table es)) (hp : p.WrittenIn es) :
    ((∀ c, ofToml text = .ok c ↔ (p.onto .standard).fault? = none ∧ c = p.onto .standard) ↔
        p.hasWholeInit = true ∨ (p.onto .standard).fault? ≠ none) ∧
      (p.hasWholeInit = true → ofToml text = (p.onto .standard).check.mapError .faulty) ∧
      (p.hasWholeInit = false → ofToml text = .error .malformed) := by
  rw [ofToml_eq ht hp]
  have hok : ∀ c, (p.onto .standard).check.mapError TomlFault.faulty = .ok c ↔
      (p.onto .standard).fault? = none ∧ c = p.onto .standard := fun c => by
    rw [mapError_eq_ok_iff, check_eq_ok_iff, eq_comm (a := c)]
  rcases hwhole : p.hasWholeInit with _ | _
  · -- nothing is given, which is right only if nothing could be given
    refine ⟨⟨fun h => .inr fun hfault => ?_, ?_⟩, nofun, fun _ => rfl⟩
    · cases (h _).mpr ⟨hfault, rfl⟩
    · rintro (h | hfault) c
      · cases h
      · exact ⟨nofun, fun hc => absurd hc.1 hfault⟩
  · exact ⟨⟨fun _ => .inl rfl, fun _ => hok⟩, fun _ => rfl, nofun⟩

/-- Some of the values of each section, all of those of the intensity: the rest is the default. -/
theorem ofToml_merges_of_partial :
    ofToml ("[grid]\nbuffering = \"lookback\"\n[thresholds]\npreset = \"trip\"\n" ++
        "[init]\nred = 1\ngreen = 0\nblue = 2\n") =
      .ok { Configuration.standard with
        grid := { GridSection.standard with buffering := .lookback }
        thresholds := { ThresholdSection.standard with preset := some .trip }
        init := ⟨1, 0, 2⟩ } := by
  let p : ConfigurationPart := ⟨some ⟨none, none, some .lookback, none⟩,
    some ⟨none, none, some .trip⟩, some ⟨some 1, some 0, some 2⟩, none, none⟩
  let es : List (String × Document) := [("grid", .table [("buffering", .text "lookback")]),
    ("thresholds", .table [("preset", .text "trip")]),
    ("init", .table [("red", .integer 1), ("green", .integer 0), ("blue", .integer 2)])]
  have hp : p.WrittenIn es :=
    ⟨.some ⟨.none, .none, .some (.text BufferMode.lookback), .none⟩,
      .some ⟨.none, .none, .some (.text Preset.trip)⟩,
      .some ⟨.some (.integer 1), .some (.integer 0), .some (.integer 2)⟩, .none, .none⟩
  have ht : Toml.read? ("[grid]\nbuffering = \"lookback\"\n[thresholds]\npreset = \"trip\"\n" ++
      "[init]\nred = 1\ngreen = 0\nblue = 2\n") = some (.table es) := by
    decide +kernel
  exact ((ofToml_merges_iff ht hp).1.mpr (.inl rfl) _).mpr ⟨by decide, rfl⟩

/-- The document of the lines of a section with one channel. -/
theorem read?_redOnly : Toml.read? "[init]\nred = 0.5\n" =
    some (.table [("init", .table [("red", .number 0.5)])]) := by
  decide +kernel

/-- **One channel is not merged over the other two**, although there is nothing wrong with the
intensity that this would give. -/
theorem incomplete_init_refused :
    let p : ConfigurationPart := ⟨none, none, some ⟨some 0.5, none, none⟩, none, none⟩
    let es : List (String × Document) := [("init", .table [("red", .number 0.5)])]
    Toml.read? "[init]\nred = 0.5\n" = some (.table es) ∧ p.WrittenIn es ∧
      (p.onto .standard).fault? = none ∧ ofToml "[init]\nred = 0.5\n" = .error .malformed := by
  intro p es
  have hp : p.WrittenIn es :=
    ⟨.none, .none, .some ⟨.some (.number 0.5), .none, .none⟩, .none, .none⟩
  refine ⟨read?_redOnly, hp, by decide, ?_⟩
  rw [ofToml_eq read?_redOnly hp]
  rfl

end Configuration

end Moorland
