import Mathlib.Data.List.TakeWhile
import Mathlib.Tactic.Common
import StateAtlas.Label.Journal
import StateAtlas.Number.Decimal
import StateAtlas.Proofs.Text.Split

set_option autoImplicit false

/-!
# Reading a text journal

The text of a text journal tells all that is in the journal, and the names of the labels. Its first
line has the names between quotes, and any other line has the number of a state, a colon, and the
indices of its labels with a blank before each. The separators are no part of what they separate as
long as there is no quote and no line break in a name, and every recorded state has a label.

## Main definitions

* `StateAtlas.Lab.read?` — the names and the labelled states of a text.

## Main results

* `StateAtlas.Lab.read?_render` — the text of a text journal is read back.
-/

namespace StateAtlas

/-! ## Lines of a text -/

/-- Lines in front of a text are the first lines of the whole. -/
lemma splitText_lines {lines : List String} (h : ∀ line ∈ lines, '\n' ∉ line.toList)
    (rest : String) :
    splitText '\n' (String.join (lines.map (· ++ "\n")) ++ rest) =
      lines ++ splitText '\n' rest := by
  induction lines with
  | nil => simp
  | cons line lines ih =>
    obtain ⟨hline, hlines⟩ := List.forall_mem_cons.mp h
    have htext : (String.join ((line :: lines).map (· ++ "\n")) ++ rest).toList =
        line.toList ++ '\n' :: (String.join (lines.map (· ++ "\n")) ++ rest).toList := by
      simp
    rw [splitText, htext, splitChars_append hline, List.map_cons, String.ofList_toList,
      ← splitText, ih hlines, List.cons_append]

lemma splitText_empty : splitText '\n' "" = [""] := by decide

/-! ## Numbers -/

/-- The text of a number consists of digits. -/
lemma isDigit_of_mem_toString {n : Nat} {c : Char} (h : c ∈ (toString n).toList) :
    c.isDigit = true := by
  have hc : c ∈ Nat.toDigits 10 n := by
    rwa [show toString n = n.repr from rfl, Nat.toList_repr] at h
  exact Nat.isDigit_of_mem_toDigits (by decide) (by decide) hc

lemma notMem_toString_nat {c : Char} (h : c.isDigit = false) (n : Nat) :
    c ∉ (toString n).toList := fun hc => by
  simp [isDigit_of_mem_toString hc] at h

/-- The text of an integer consists of digits and possibly a sign. -/
lemma notMem_toString_int {c : Char} (h : c.isDigit = false) (hs : c ≠ '-') (i : Int) :
    c ∉ (toString i).toList := by
  rw [show toString i = i.repr from rfl, Int.repr_eq_if]
  split
  · exact notMem_toString_nat h _
  · rw [String.toList_append, List.mem_append, not_or]
    exact ⟨by simpa using hs, notMem_toString_nat h _⟩

namespace Lab

/-! ## The reader -/

/-- A number in base ten. -/
def readNumber? (cs : List Char) : Option Nat :=
  match leadingDigits cs with
  | (n, _, []) => some n
  | _ => none

/-- The number of a state. -/
def readId? (s : String) : Option Int :=
  let (negative, cs) := splitSign s.toList
  (readNumber? cs).map fun n : Nat => if negative then -(n : Int) else n

/-- The labelled state of a line. -/
def readLine? (line : String) : Option LabeledState :=
  match splitText ':' line with
  | [id, indices] =>
    match readId? id, (splitText ' ' indices).tail.mapM fun s => readNumber? s.toList with
    | some id, some indices => some ⟨id, indices⟩
    | _, _ => none
  | _ => none

/-- Every second one of some pieces, beginning with the second. -/
def seconds : List String → List String
  | _ :: piece :: rest => piece :: seconds rest
  | _ => []

/-- The names and the labelled states of a text. What stands behind the last line break is no line
any more. -/
def read? (text : String) : Option (List String × List LabeledState) :=
  match splitText '\n' text with
  | header :: lines =>
    (lines.dropLast.mapM readLine?).map fun states => (seconds (splitText '"' header), states)
  | [] => none

lemma readNumber?_toString (n : Nat) : readNumber? (toString n).toList = some n := by
  have hdigits : ∀ c ∈ (toString n).toList, c.isDigit = true := fun c => isDigit_of_mem_toString
  have hvalue : (toString n).toList.foldl (fun n c => 10 * n + (c.toNat - 48)) 0 = n := by
    rw [show toString n = n.repr from rfl, Nat.toList_repr]
    exact Nat.ofDigitChars_toDigits (by decide) (by decide)
  rw [readNumber?, leadingDigits, List.takeWhile_eq_self_iff.mpr hdigits,
    List.dropWhile_eq_nil_iff.mpr hdigits, hvalue]

/-- A text that begins with a digit has no sign. -/
lemma splitSign_of_isDigit {cs : List Char} (h : ∀ c ∈ cs, c.isDigit = true) :
    splitSign cs = (false, cs) := by
  unfold splitSign
  split
  · simpa using h '-' List.mem_cons_self
  · simpa using h '+' List.mem_cons_self
  · rfl

lemma readId?_toString (i : Int) : readId? (toString i) = some i := by
  have hdigits : ∀ n : Nat, splitSign (toString n).toList = (false, (toString n).toList) :=
    fun n => splitSign_of_isDigit fun c => isDigit_of_mem_toString
  rw [readId?, show toString i = i.repr from rfl, Int.repr_eq_if]
  by_cases hi : 0 ≤ i
  · rw [if_pos hi, show i.toNat.repr = toString i.toNat from rfl, hdigits]
    simp only [readNumber?_toString, Option.map_some, Bool.false_eq_true, if_false,
      Option.some.injEq]
    omega
  · rw [if_neg hi, show (-i).toNat.repr = toString (-i).toNat from rfl, String.toList_append,
      show "-".toList = ['-'] from rfl, List.singleton_append, splitSign]
    simp only [readNumber?_toString, Option.map_some, if_true, Option.some.injEq]
    omega

/-! ## The header -/

lemma toList_enumerate_cons (k : Nat) (l : Label) (ls : List Label) :
    (Journal.enumerate k (l :: ls)).toList = (toString k).toList ++ ['='] ++
      '"' :: (l.name.toList ++ '"' :: ([' '] ++ (Journal.enumerate (k + 1) ls).toList)) := by
  simp [Journal.enumerate]

/-- Names without quotes stand between the quotes of the header. -/
lemma seconds_enumerate {labels : List Label} (h : ∀ l ∈ labels, '"' ∉ l.name.toList) :
    ∀ {before : List Char} (k : Nat), '"' ∉ before →
      seconds ((splitChars '"' (before ++ (Journal.enumerate k labels).toList)).map String.ofList) =
        labels.map Label.name := by
  induction labels with
  | nil =>
    intro before k hbefore
    rw [splitChars_of_notMem (by simpa [Journal.enumerate] using hbefore)]
    rfl
  | cons l ls ih =>
    intro before k hbefore
    have hl := h l List.mem_cons_self
    have hnumber : '"' ∉ before ++ ((toString k).toList ++ ['=']) := by
      rw [List.mem_append, List.mem_append]
      simp only [hbefore, notMem_toString_nat (c := '"') (by decide) k, false_or]
      decide
    rw [toList_enumerate_cons, ← List.append_assoc, splitChars_append hnumber,
      splitChars_append hl, List.map_cons, List.map_cons, seconds, String.ofList_toList,
      ih (fun l' hl' => h l' (List.mem_cons_of_mem l hl')) (k + 1) (by decide), List.map_cons]

/-- There is no line break in a header. -/
lemma notMem_enumerate {labels : List Label} (h : ∀ l ∈ labels, '\n' ∉ l.name.toList) :
    ∀ k, '\n' ∉ (Journal.enumerate k labels).toList := by
  induction labels with
  | nil => simp [Journal.enumerate]
  | cons l ls ih =>
    intro k
    have hk := notMem_toString_nat (c := '\n') (by decide) k
    have hl := h l List.mem_cons_self
    have hrest := ih (fun l' hl' => h l' (List.mem_cons_of_mem l hl')) (k + 1)
    rw [toList_enumerate_cons]
    simp only [List.mem_append, List.mem_cons, hk, hl, hrest, false_or, or_false]
    decide

/-! ## The lines -/

/-- The indices of a state with blanks between them. -/
def blanked (indices : List Nat) : List Char :=
  [' '].intercalate (indices.map fun i => (toString i).toList)

/-- The line of a state without the line break. -/
def body (s : LabeledState) : List Char := (toString s.id).toList ++ ':' :: ' ' :: blanked s.indices

/-- The line of a state as a text, without the line break. -/
def stateLine (s : LabeledState) : String := String.ofList (body s)

lemma line_eq (s : LabeledState) : s.line = stateLine s ++ "\n" := by
  rw [← String.toList_inj]
  simp [stateLine, LabeledState.line, body, blanked, String.toList_intercalate, Function.comp_def]

/-- Indices with blanks between them contain no other separator. -/
lemma notMem_blanked {c : Char} (h : c.isDigit = false) (hb : c ≠ ' ') (indices : List Nat) :
    c ∉ blanked indices := by
  rw [blanked]
  induction indices with
  | nil => simp
  | cons i is ih =>
    cases is with
    | nil => simpa using notMem_toString_nat h i
    | cons j js =>
      rw [List.map_cons, List.map_cons, List.intercalate_cons_cons]
      simp only [List.mem_append, not_or]
      exact ⟨⟨notMem_toString_nat h i, by simpa using hb⟩, ih⟩

/-- There is no line break in a line but at its end. -/
lemma notMem_body (s : LabeledState) : '\n' ∉ body s := by
  have hid := notMem_toString_int (c := '\n') (by decide) (by decide) s.id
  have hindices := notMem_blanked (c := '\n') (by decide) (by decide) s.indices
  simp only [body, List.mem_append, List.mem_cons, hid, hindices, false_or, or_false]
  decide

/-- Indices with a blank before each are read back, if there are any. -/
lemma read_blanked {indices : List Nat} (h : indices ≠ []) :
    (splitText ' ' (String.ofList (' ' :: blanked indices))).tail.mapM
      (fun s => readNumber? s.toList) = some indices := by
  have hpieces : splitChars ' ' (blanked indices) = indices.map fun i => (toString i).toList := by
    rw [splitChars_eq_splitOn]
    refine List.splitOn_intercalate ' ' (fun piece hpiece => ?_) (by simpa using h)
    obtain ⟨i, -, rfl⟩ := List.mem_map.mp hpiece
    exact notMem_toString_nat (by decide) i
  have hsplit : splitChars ' ' (' ' :: blanked indices) = [] :: splitChars ' ' (blanked indices) :=
    splitChars_append List.not_mem_nil _
  rw [splitText, String.toList_ofList, hsplit, hpieces, List.map_cons, List.tail_cons, List.map_map]
  clear h hpieces hsplit
  induction indices with
  | nil => rfl
  | cons i is ih =>
    rw [List.map_cons, List.mapM_cons, ih]
    simp only [Function.comp_apply, String.toList_ofList, readNumber?_toString]
    rfl

/-- A line with an index is read back. -/
lemma readLine?_stateLine {s : LabeledState} (h : s.indices ≠ []) :
    readLine? (stateLine s) = some s := by
  have hid := notMem_toString_int (c := ':') (by decide) (by decide) s.id
  have hindices : ':' ∉ ' ' :: blanked s.indices := by
    simpa using notMem_blanked (c := ':') (by decide) (by decide) s.indices
  rw [readLine?, splitText, stateLine, String.toList_ofList, body, splitChars_append hid,
    splitChars_of_notMem hindices]
  simp only [List.map_cons, List.map_nil, String.ofList_toList, readId?_toString, read_blanked h]

/-- Lines with indices are read back. -/
lemma read_stateLines {states : List LabeledState} (h : ∀ s ∈ states, s.indices ≠ []) :
    (states.map stateLine).mapM readLine? = some states := by
  induction states with
  | nil => rfl
  | cons s states ih =>
    rw [List.map_cons, List.mapM_cons, readLine?_stateLine (h s List.mem_cons_self),
      ih fun s' hs' => h s' (List.mem_cons_of_mem s hs')]
    rfl

/-! ## The text -/

/-- The lines of a text are the header and those of the states, if no name has a line break. -/
lemma splitText_render {states : Array LabeledState} {labels : List Label}
    (h : ∀ l ∈ labels, '\n' ∉ l.name.toList) :
    splitText '\n' ((Journal.text states).render labels) =
      Journal.enumerate 0 labels :: (states.toList.map stateLine ++ [""]) := by
  have hlines : ∀ line ∈ Journal.enumerate 0 labels :: states.toList.map stateLine,
      '\n' ∉ line.toList := by
    refine List.forall_mem_cons.mpr ⟨notMem_enumerate h 0, fun line hline => ?_⟩
    obtain ⟨s, -, rfl⟩ := List.mem_map.mp hline
    simpa [stateLine] using notMem_body s
  have hrender : (Journal.text states).render labels = Journal.enumerate 0 labels ++ "\n" ++
      String.join (states.toList.map LabeledState.line) := rfl
  have htext : (Journal.text states).render labels = String.join
      ((Journal.enumerate 0 labels :: states.toList.map stateLine).map (· ++ "\n")) ++ "" := by
    rw [hrender, List.map_cons, String.join_cons, List.map_map, String.append_empty]
    congr 2
    exact List.map_congr_left fun s _ => line_eq s
  rw [htext, splitText_lines hlines, splitText_empty, List.cons_append]

/-- The text of a text journal is read back, if no name has a quote or a line break and every
recorded state has a label. -/
theorem read?_render {states : Array LabeledState} {labels : List Label}
    (hnames : ∀ l ∈ labels, '"' ∉ l.name.toList ∧ '\n' ∉ l.name.toList)
    (hstates : ∀ s ∈ states, s.indices ≠ []) :
    read? ((Journal.text states).render labels) = some (labels.map Label.name, states.toList) := by
  have hseconds := seconds_enumerate (fun l hl => (hnames l hl).1) 0 (List.not_mem_nil (a := '"'))
  have hlines : (states.toList.map stateLine).mapM readLine? = some states.toList :=
    read_stateLines fun s hs => hstates s (by simpa using hs)
  rw [List.nil_append] at hseconds
  rw [read?, splitText_render fun l hl => (hnames l hl).2]
  simp only [List.dropLast_concat, hlines, Option.map_some]
  rw [splitText, hseconds]

example : read? "0=\"init\" 1=\"end\" \n-1: 0\n3: 0 1\n" =
    some (["init", "end"], [⟨-1, [0]⟩, ⟨3, [0, 1]⟩]) := by decide +kernel

end Lab

end StateAtlas
