import Moorland.Document.Toml.Reader
import Moorland.Proofs.Toml.Numbers
/-!
# Lines are read back

A line that is written holds a name with a value, a header, or nothing, and the reader takes it as
one line. Its effect on the document that is being read is one step of `Moorland.Toml.Draft`, and
texts of several lines chain these steps (`Moorland.Toml.Reads`).

Names here are **bare**: they can be written without quotes.
-/

namespace Moorland.Toml

variable {c : Char} {s t : List Char}

/-! ### Texts -/

/-- The characters that stand for a character between double quotes. -/
def escape (c : Char) : List Char :=
  if c = '"' then ['\\', '"'] else if c = '\\' then ['\\', '\\'] else [c]

theorem toList_quote (s : String) :
    (quote s).toList = '"' :: (s.toList.flatMap escape ++ ['"']) := by
  have hescape : ∀ c : Char, (if c = '"' then "\\\"" else if c = '\\' then "\\\\"
      else c.toString).toList = escape c := by
    intro c
    rw [escape]
    split_ifs <;> simp [Char.toString]
  rw [quote, String.toList_append, String.toList_append, String.toList_join, List.flatMap_map]
  simp only [hescape]
  rfl

theorem escape_cons_ne (c : Char) (s : List Char) : ∀ t, escape c ++ s ≠ '"' :: t := by
  intro t h
  rw [escape] at h
  split_ifs at h with hquote
  · cases h
  · cases h
  · exact hquote (List.cons.inj h).1

theorem length_le_escape (cs : List Char) : cs.length ≤ (cs.flatMap escape).length := by
  induction cs with
  | nil => rfl
  | cons c cs ih =>
    have hpos : 0 < (escape c).length := by
      rw [escape]
      split_ifs <;> exact Nat.succ_pos _
    rw [List.flatMap_cons, List.length_append, List.length_cons]
    omega

/-- **What is written between double quotes is read back**, character by character. -/
theorem takeBasic?_escape {cs : List Char} (hcs : ∀ c ∈ cs, isPrintable c = true) {fuel : ℕ}
    (hfuel : cs.length < fuel) (acc : List Char) :
    takeBasic? acc fuel (cs.flatMap escape ++ '"' :: s) = some (acc.reverse ++ cs, s) := by
  induction cs generalizing acc fuel with
  | nil =>
    obtain ⟨fuel, rfl⟩ := Nat.exists_eq_succ_of_ne_zero (Nat.ne_of_gt hfuel)
    rw [List.append_nil]
    rfl
  | cons c cs ih =>
    obtain ⟨fuel, rfl⟩ := Nat.exists_eq_succ_of_ne_zero (by omega : fuel ≠ 0)
    have hlt : cs.length < fuel := Nat.lt_of_succ_lt_succ hfuel
    have hnext := ih (fun d hd => hcs d (by simp [hd])) hlt (c :: acc)
    rw [List.reverse_cons, List.append_assoc, List.singleton_append] at hnext
    rw [List.flatMap_cons, List.append_assoc, ← hnext]
    by_cases hquote : c = '"'
    · rw [hquote]
      rfl
    · by_cases hslash : c = '\\'
      · rw [hslash]
        rfl
      · rw [escape, if_neg hquote, if_neg hslash, List.singleton_append, takeBasic?,
          if_pos (hcs c (by simp))]
        · exact fun h => hquote h
        · exact fun h => hslash h

/-- **A text in quotes is read back** if it has no control characters. -/
theorem takeScalar?_quote {x : String} (hx : ∀ c ∈ x.toList, isPrintable c = true) :
    takeScalar? ((quote x).toList ++ '\n' :: s) = some (.value (.text x), '\n' :: s) := by
  have hlt : x.toList.length < (x.toList.flatMap escape ++ '"' :: '\n' :: s).length + 1 := by
    have := length_le_escape x.toList
    rw [List.length_append]
    omega
  have htake := takeBasic?_escape (s := '\n' :: s) hx hlt []
  have hthree : ∀ t, x.toList.flatMap escape ++ '"' :: '\n' :: s ≠ '"' :: '"' :: t := by
    intro t h
    cases hcs : x.toList with
    | nil =>
      rw [hcs] at h
      cases h
    | cons c cs =>
      rw [hcs, List.flatMap_cons, List.append_assoc] at h
      exact escape_cons_ne c _ _ h
  rw [toList_quote, List.cons_append, List.append_assoc, List.singleton_append]
  change (takeText? _).map _ = _
  rw [takeText?, htake]
  · simp only [List.reverse_nil, List.nil_append, Option.map_some, String.ofList_toList]
  · exact fun t h => hthree t h

/-! ### Values -/

/-- **No scalar starts** with a bracket, a brace or white space. -/
theorem takeScalar?_eq_none (hc : c ∈ ['[', '\x7b', ' ', '\t']) : takeScalar? (c :: s) = none := by
  have hcases : c = '[' ∨ c = '\x7b' ∨ c = ' ' ∨ c = '\t' := by simpa using hc
  have hdigit : c.isDigit = false := by rcases hcases with rfl | rfl | rfl | rfl <;> rfl
  have hnumeric : takeNumeric? (c :: s) = none := by
    rw [takeNumeric?, startsDate_of_not_isDigit hdigit, startsTime_of_not_isDigit hdigit]
    · rcases hcases with rfl | rfl | rfl | rfl <;> rfl
    all_goals
      intro t h
      obtain ⟨rfl, -⟩ := List.cons.inj h
      cases hdigit
  rw [takeScalar?_eq, hnumeric]
  all_goals
    rintro rfl
    revert hc
    decide

/-- **A scalar is a value.** -/
theorem takeValue?_of_takeScalar? {x : Node × List Char} (h : takeScalar? s = some x)
    (fuel depth : ℕ) : takeValue? (fuel + 1) depth s = some x := by
  rw [takeValue?.eq_def]
  split
  next heq => cases heq
  next heq =>
    rw [takeScalar?_eq_none (by decide)] at h
    cases h
  next heq =>
    rw [takeScalar?_eq_none (by decide)] at h
    cases h
  next heq =>
    exact h

/-- A value does not start with white space. -/
theorem skipBlank_of_takeValue? {fuel depth : ℕ} {x : Node × List Char}
    (h : takeValue? (fuel + 1) depth s = some x) : skipBlank s = s := by
  cases s with
  | nil => rfl
  | cons c s =>
    refine List.dropWhile_cons_of_neg fun hblank => ?_
    rw [isBlank, Bool.or_eq_true, decide_eq_true_eq, decide_eq_true_eq] at hblank
    rcases hblank with rfl | rfl <;>
    · rw [takeValue?, takeScalar?_eq_none (by decide)] at h
      · cases h
      all_goals
        intro t heq
        cases (List.cons.inj heq).1

/-- **A value that is written on its line** and can be read from there. -/
inductive IsInline : Document → Prop
  /-- A yes or no. -/
  | flag (b : Bool) : IsInline (.flag b)
  /-- An integer that fits. -/
  | integer {n : ℤ} (hn : FitsWord n) : IsInline (.integer n)
  /-- A number. -/
  | number (v : Float) : IsInline (.number v)
  /-- A text without control characters. -/
  | text {x : String} (hx : ∀ c ∈ x.toList, isPrintable c = true) : IsInline (.text x)
  /-- The list without elements. -/
  | empty : IsInline (.list [])

/-- **A value on its line is read back.** -/
theorem IsInline.takeValue? {d : Document} (hd : IsInline d) (fuel : ℕ) :
    takeValue? (fuel + 2) 0 ((writeInline d).toList ++ '\n' :: s) =
      some (.value d, '\n' :: s) := by
  cases hd with
  | flag b =>
    refine takeValue?_of_takeScalar? ?_ _ _
    cases b <;> rfl
  | integer hn => exact takeValue?_of_takeScalar? (takeScalar?_integer hn) _ _
  | number v => exact takeValue?_of_takeScalar? (takeScalar?_double v) _ _
  | text hx => exact takeValue?_of_takeScalar? (takeScalar?_quote hx) _ _
  | empty =>
    have hskip : skipSpace false (']' :: '\n' :: s) = ']' :: '\n' :: s := rfl
    have helements : takeElements? (fuel + 1) 1 [] (']' :: '\n' :: s) = some ([], '\n' :: s) := by
      rw [takeElements?, hskip]
      rfl
    have htext : (writeInline (.list [])).toList = ['[', ']'] := rfl
    rw [htext, List.cons_append, List.singleton_append, Toml.takeValue?, if_pos (by decide),
      helements]
    rfl

/-! ### Names and paths -/

/-- **A bare name**: one that is written without quotes. -/
structure IsBare (name : String) : Prop where
  /-- It has a character. -/
  ne_nil : name.toList ≠ []
  /-- Its characters need no quotes. -/
  isKeyChar : ∀ c ∈ name.toList, isKeyChar c = true

/-- The text of a path of names. -/
def dotted (path : List String) : String := ".".intercalate path

theorem IsBare.exists_cons {name : String} (hn : IsBare name) :
    ∃ c cs, name.toList = c :: cs ∧ Toml.isKeyChar c = true := by
  obtain ⟨c, cs, h⟩ := List.exists_cons_of_ne_nil hn.ne_nil
  exact ⟨c, cs, h, hn.isKeyChar c (h ▸ List.mem_cons_self)⟩

theorem isKeyChar_ne {d : Char} (hc : isKeyChar c = true) (hd : isKeyChar d = false) : c ≠ d := by
  rintro rfl
  exact Bool.false_ne_true (hd.symm.trans hc)

/-- **A bare name is taken** up to what cannot stand in one. -/
theorem takePart?_bare {name : String} (hn : IsBare name) (hc : isKeyChar c = false) :
    takePart? (name.toList ++ c :: s) = some (name, c :: s) := by
  have hspan : (name.toList ++ c :: s).span isKeyChar = (name.toList, c :: s) := by
    rw [List.span_eq_takeWhile_dropWhile, List.takeWhile_append_of_pos hn.isKeyChar,
      List.dropWhile_append_of_pos hn.isKeyChar, List.takeWhile_cons_of_neg (by simp [hc]),
      List.dropWhile_cons_of_neg (by simp [hc]), List.append_nil]
  obtain ⟨d, ds, hname, hd⟩ := hn.exists_cons
  rw [takePart?.eq_def]
  split
  next h =>
    rw [hname] at h
    exact absurd (List.cons.inj h).1 (isKeyChar_ne hd rfl)
  next h =>
    rw [hname] at h
    exact absurd (List.cons.inj h).1 (isKeyChar_ne hd rfl)
  next h =>
    rw [hspan, hname]
    simp only
    rw [← hname, String.ofList_toList]

theorem skipBlank_bare {name : String} (hn : IsBare name) :
    skipBlank (name.toList ++ s) = name.toList ++ s := by
  obtain ⟨d, ds, hname, hd⟩ := hn.exists_cons
  rw [hname, List.cons_append, skipBlank, List.dropWhile_cons_of_neg]
  rw [isBlank, Bool.not_eq_true, Bool.or_eq_false_iff, decide_eq_false_iff_not,
    decide_eq_false_iff_not]
  exact ⟨isKeyChar_ne hd rfl, isKeyChar_ne hd rfl⟩

/-- **A path of bare names is taken** up to what cannot stand in one, if no other part follows. -/
theorem takeParts?_dotted {names : List String} (hne : names ≠ [])
    (hnames : ∀ n ∈ names, IsBare n) (hc : isKeyChar c = false)
    (hdot : ∀ t, skipBlank (c :: s) ≠ '.' :: t) {fuel : ℕ} (hfuel : names.length ≤ fuel)
    (acc : List String) :
    takeParts? acc fuel ((dotted names).toList ++ c :: s) =
      some (names.reverse ++ acc, skipBlank (c :: s)) := by
  induction names generalizing acc fuel with
  | nil => exact absurd rfl hne
  | cons name names ih =>
    obtain ⟨fuel, rfl⟩ : ∃ k, fuel = k + 1 := ⟨fuel - 1, by rw [List.length_cons] at hfuel; omega⟩
    have hn : IsBare name := hnames name (by simp)
    rcases names with _ | ⟨other, names⟩
    · rw [dotted, String.intercalate_singleton, takeParts?, skipBlank_bare hn,
        takePart?_bare hn hc]
      simp only [Option.bind_eq_bind, Option.bind_some]
      rfl
    · have hrest := ih (List.cons_ne_nil _ _) (fun n h => hnames n (by simp [h]))
        (Nat.le_of_succ_le_succ hfuel) (name :: acc)
      rw [dotted] at hrest ⊢
      have hpoint : ∀ t, skipBlank ('.' :: t) = '.' :: t := fun t => rfl
      have hjoin : ".".toList = ['.'] := rfl
      rw [String.intercalate_cons_cons, String.toList_append, String.toList_append, hjoin,
        List.append_assoc, List.append_assoc, List.singleton_append, takeParts?, skipBlank_bare hn,
        takePart?_bare hn rfl]
      simp only [Option.bind_eq_bind, Option.bind_some, hpoint]
      rw [hrest]
      simp

theorem length_le_dotted (names : List String) :
    names.length ≤ (dotted names).toList.length + 1 := by
  induction names with
  | nil => exact Nat.zero_le _
  | cons name names ih =>
    rcases names with _ | ⟨other, names⟩
    · exact Nat.succ_le_succ (Nat.zero_le _)
    · rw [dotted] at ih ⊢
      rw [String.intercalate_cons_cons, String.toList_append, String.toList_append,
        List.length_append, List.length_append, List.length_cons]
      have hjoin : ".".toList.length = 1 := rfl
      omega

/-- **A key is taken** as the path to its last name and that name. -/
theorem takeKey?_dotted {path : List String} {name : String}
    (hnames : ∀ n ∈ path ++ [name], IsBare n) (hlength : path.length + 1 < maxParts)
    (hc : isKeyChar c = false) (hdot : ∀ t, skipBlank (c :: s) ≠ '.' :: t) :
    takeKey? ((dotted (path ++ [name])).toList ++ c :: s) =
      some ((path, name), skipBlank (c :: s)) := by
  have hfuel : (path ++ [name]).length ≤
      ((dotted (path ++ [name])).toList ++ c :: s).length + 1 := by
    refine (length_le_dotted (path ++ [name])).trans (Nat.succ_le_succ ?_)
    rw [List.length_append]
    exact Nat.le_add_right _ _
  have htake := takeParts?_dotted (by simp) hnames hc hdot hfuel []
  rw [takeKey?, htake]
  simp [hlength]

/-! ### Lines -/

/-- **Reading a text takes one draft to another**, whatever follows the text. It takes no more lines
than the text has characters. -/
def Reads (d : Draft) (text : List Char) (e : Draft) : Prop :=
  ∃ k ≤ text.length, ∀ count rest, lines? d (count + k) (text ++ rest) = lines? e count rest

namespace Reads

variable {d e f : Draft} {text more : List Char}

theorem refl (d : Draft) : Reads d [] d := ⟨0, le_rfl, fun _ _ => rfl⟩

theorem trans (h : Reads d text e) (h' : Reads e more f) : Reads d (text ++ more) f := by
  obtain ⟨k, hk, h⟩ := h
  obtain ⟨l, hl, h'⟩ := h'
  refine ⟨k + l, ?_, fun count rest => ?_⟩
  · rw [List.length_append]
    exact Nat.add_le_add hk hl
  · rw [List.append_assoc, Nat.add_comm k, ← Nat.add_assoc, h, h']

/-- A blank line changes nothing. -/
theorem blank (d : Draft) : Reads d ['\n'] d := ⟨1, le_rfl, fun _ _ => rfl⟩

/-- **A line that is not blank** is read at once. -/
theorem of_line (hblank : isBlank c = false) (hhash : c ≠ '#') (hnew : c ≠ '\n') (hret : c ≠ '\r')
    (h : ∀ rest, line? d (c :: text ++ rest) = some (e, rest)) : Reads d (c :: text) e := by
  refine ⟨1, Nat.succ_le_succ (Nat.zero_le _), fun count rest => ?_⟩
  have hskip : skipBlank (c :: (text ++ rest)) = c :: (text ++ rest) :=
    List.dropWhile_cons_of_neg (by simp [hblank])
  have hnewline : newline? (c :: (text ++ rest)) = none := by
    rw [newline?.eq_def]
    split <;> simp_all
  have hline := h rest
  rw [List.cons_append] at hline ⊢
  rw [lines?, hskip]
  split
  next heq => cases heq
  next heq => exact absurd (List.cons.inj heq).1 hhash
  next heq =>
    obtain ⟨rfl, rfl⟩ := List.cons.inj heq
    rw [hnewline, hline]
    rfl

/-- **A line with a bare name** in front. -/
theorem of_keyLine {name : String} (hn : IsBare name)
    (h : ∀ rest, keyLine? d (name.toList ++ text ++ rest) = some (e, rest)) :
    Reads d (name.toList ++ text) e := by
  obtain ⟨c, cs, hname, hc⟩ := hn.exists_cons
  rw [hname] at h ⊢
  refine of_line ?_ (isKeyChar_ne hc rfl) (isKeyChar_ne hc rfl) (isKeyChar_ne hc rfl) fun rest => ?_
  · rw [isBlank, Bool.or_eq_false_iff, decide_eq_false_iff_not, decide_eq_false_iff_not]
    exact ⟨isKeyChar_ne hc rfl, isKeyChar_ne hc rfl⟩
  · rw [line?.eq_def]
    split
    next heq => exact absurd (List.cons.inj heq).1 (isKeyChar_ne hc rfl)
    next heq => exact absurd (List.cons.inj heq).1 (isKeyChar_ne hc rfl)
    next heq => exact h rest

/-- **The line of a value** puts it under its name. -/
theorem value {name : String} {v : Document} (hn : IsBare name) (hv : IsInline v)
    (h : d.key? [] name (.value v) = some e) :
    Reads d (name ++ " = " ++ writeInline v ++ "\n").toList e := by
  rw [String.toList_append, String.toList_append, String.toList_append, List.append_assoc,
    List.append_assoc]
  refine of_keyLine hn fun rest => ?_
  have hkey : takeKey? ((dotted ([] ++ [name])).toList ++
      ' ' :: '=' :: ' ' :: ((writeInline v).toList ++ '\n' :: rest)) =
      some (([], name), '=' :: ' ' :: ((writeInline v).toList ++ '\n' :: rest)) :=
    takeKey?_dotted (by simpa using hn) (by decide) rfl fun t ht => by cases ht
  have hvalue := hv.takeValue? (s := rest)
    (2 * (' ' :: ((writeInline v).toList ++ '\n' :: rest)).length)
  have hskip : skipBlank (' ' :: ((writeInline v).toList ++ '\n' :: rest)) =
      (writeInline v).toList ++ '\n' :: rest := skipBlank_of_takeValue? hvalue
  have hend : endLine? ('\n' :: rest) = some rest := rfl
  have htext : name.toList ++ (" = ".toList ++ ((writeInline v).toList ++ "\n".toList)) ++ rest =
      (dotted ([] ++ [name])).toList ++
        ' ' :: '=' :: ' ' :: ((writeInline v).toList ++ '\n' :: rest) := by
    rw [List.nil_append, dotted, String.intercalate_singleton]
    simp
  rw [htext, keyLine?, hkey]
  simp only [Option.bind_eq_bind, Option.bind_some, hskip]
  rw [hvalue]
  simp only [Option.bind_some, hend, h]
  rfl

/-- The key of a header is taken up to the bracket after it. -/
theorem takeKey?_header {path : List String} {name : String}
    (hnames : ∀ n ∈ path ++ [name], IsBare n) (hlength : path.length + 1 < maxParts)
    (rest : List Char) :
    takeKey? ((dotted (path ++ [name])).toList ++ ']' :: rest) = some ((path, name), ']' :: rest) :=
  takeKey?_dotted hnames hlength rfl fun t ht => by cases ht

/-- **The line of a header** in single brackets. -/
theorem header {path : List String} {name : String} (hnames : ∀ n ∈ path ++ [name], IsBare n)
    (hlength : path.length + 1 < maxParts) (h : d.header? path name = some e) :
    Reads d ("[" ++ dotted (path ++ [name]) ++ "]\n").toList e := by
  have htext : ("[" ++ dotted (path ++ [name]) ++ "]\n").toList =
      '[' :: ((dotted (path ++ [name])).toList ++ [']', '\n']) := by simp
  rw [htext]
  refine of_line rfl (by decide) (by decide) (by decide) fun rest => ?_
  have hkey := takeKey?_header hnames hlength ('\n' :: rest)
  have hend : endLine? ('\n' :: rest) = some rest := rfl
  rw [List.cons_append, List.append_assoc, List.cons_append, List.singleton_append, line?]
  · rw [hkey]
    simp only [Option.bind_eq_bind, Option.bind_some, h, hend]
    rfl
  · -- a key does not start with a bracket
    intro t ht
    have hnone : takeKey? ('[' :: t) = none := rfl
    rw [ht, hnone] at hkey
    cases hkey

end Reads

end Moorland.Toml
