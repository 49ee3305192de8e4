import StateAtlas.Label.Writer
import StateAtlas.Proofs.Label.Lab
import StateAtlas.Proofs.Label.Numbering

set_option autoImplicit false

/-!
# Reading a legend

The table of a legend can be read back, whatever stands in the descriptions of the labels. The
brackets of markup are escaped in them, so that the brackets of the text are those of its own tags:
cut at the opening ones, it falls into six pieces for each label, and two of these tell the colour
and the description.

## Main definitions

* `StateAtlas.Color.marks` — the characters of colours besides decimal digits.
* `StateAtlas.Legend.unescape` — a description as it was before it was escaped.
* `StateAtlas.Legend.rowPieces` — the pieces of the row of a label.
* `StateAtlas.Legend.read?` — the colours and descriptions of a legend.

## Main results

* `StateAtlas.Color.notMem_text` — the characters of a colour.
* `StateAtlas.Legend.unescape_escape` — no description is lost by escaping.
* `StateAtlas.Legend.splitText_render` — the pieces of a legend.
* `StateAtlas.Legend.read?_render` — a legend is read back.
* `StateAtlas.Writer.legend_readable` — the legend of a writer tells its labels.
-/

namespace StateAtlas

/-! ## Colours -/

namespace Color

/-- The characters of colours besides decimal digits: the marks and the other digits of channels. -/
def marks : List Char := ['-', '#', 'a', 'b', 'c', 'd', 'e', 'f']

variable {c : Char}

/-- There are only such characters and decimal digits in a channel. -/
lemma notMem_channel (hd : c.isDigit = false) (hc : c ∉ marks) {x phase : Float} {s : String}
    (h : channel x phase = .ok s) : c ∉ s.toList := by
  have hdigits : ∀ n < 16, (Nat.digitChar n).isDigit = true ∨ Nat.digitChar n ∈ marks := by
    decide
  have hdigit : ∀ n < 16, c ≠ Nat.digitChar n := by
    rintro n hn rfl
    rcases hdigits n hn with hdigit | hletter
    · rw [hdigit] at hd
      cases hd
    · exact hc hletter
  have byte : ∀ n < 256, c ∉ (hexByte n).toList := by
    intro n hn
    have hhigh := hdigit (n / 16) (by omega)
    have hlow := hdigit (n % 16) (by omega)
    simp [hexByte, hhigh, hlow]
  unfold channel at h
  simp only at h
  split at h
  · simp at h
  · obtain rfl := Except.ok.inj h
    exact byte _ (by omega)

/-- There are only such characters and decimal digits in a colour. -/
lemma notMem_text (hd : c.isDigit = false) (hc : c ∉ marks) (index : Nat) :
    c ∉ (text index).toList := by
  have hminus : c ≠ '-' := by
    rintro rfl
    exact hc (by decide)
  have hsharp : c ≠ '#' := by
    rintro rfl
    exact hc (by decide)
  unfold text
  split
  · rename_i s h
    unfold ofIndex at h
    split at h
    · split at h
      · rename_i slot hslot
        obtain rfl := Except.ok.inj h
        unfold integerText? at hslot
        split at hslot
        · obtain rfl := Option.some.inj hslot
          exact notMem_toString_int hd hminus _
        · simp at hslot
      · simp at h
    · split at h
      · simp at h
      · split at h
        · rename_i hr hg hb
          obtain rfl := Except.ok.inj h
          simp [notMem_channel hd hc hr, notMem_channel hd hc hg, notMem_channel hd hc hb, hsharp]
        · simp at h
        · simp at h
        · simp at h
  · simp

end Color

namespace Legend

/-! ## Descriptions -/

/-- A text as it was before it was escaped. -/
def unescape : List Char → List Char
  | '&' :: 'a' :: 'm' :: 'p' :: ';' :: cs => '&' :: unescape cs
  | '&' :: 'l' :: 't' :: ';' :: cs => '<' :: unescape cs
  | '&' :: 'g' :: 't' :: ';' :: cs => '>' :: unescape cs
  | c :: cs => c :: unescape cs
  | [] => []

lemma unescape_cons {c : Char} (h : c ≠ '&') (cs : List Char) :
    unescape (c :: cs) = c :: unescape cs := by
  rw [unescape]
  all_goals simp [h]

/-- An escaped text can be told from every other one: an escape begins with an ampersand, and every
ampersand is escaped. -/
lemma unescape_escape (s : String) : unescape (escape s).toList = s.toList := by
  rw [escape, String.toList_ofList]
  induction s.toList with
  | nil => rfl
  | cons c cs ih =>
    rw [List.flatMap_cons, escapeChar]
    split
    · rename_i hc
      exact hc ▸ congrArg ('&' :: ·) ih
    · rename_i hamp
      split
      · rename_i hc
        exact hc ▸ congrArg ('<' :: ·) ih
      · split
        · rename_i hc
          exact hc ▸ congrArg ('>' :: ·) ih
        · rw [List.singleton_append, unescape_cons hamp, ih]

/-- There are no brackets in an escaped text. -/
lemma notMem_escape (s : String) : '<' ∉ (escape s).toList ∧ '>' ∉ (escape s).toList := by
  have hchar : ∀ c, '<' ∉ escapeChar c ∧ '>' ∉ escapeChar c := by
    intro c
    unfold escapeChar
    split
    · decide
    · split
      · decide
      · split
        · decide
        · rename_i hl hg
          simp [Ne.symm hl, Ne.symm hg]
  rw [escape, String.toList_ofList]
  simp only [List.mem_flatMap, not_exists, not_and]
  exact ⟨fun c _ => (hchar c).1, fun c _ => (hchar c).2⟩

/-! ## Pieces -/

/-- The pieces in front of the rows. -/
def top : List String :=
  ["digraph legend \x7b\nnode [colorscheme=\"" ++ Color.scheme ++
      "\" shape=plaintext]\n\x7b legend_node [\nlabel=", "\n",
    "table border=\"0\" cellborder=\"0\" cellspacing=\"0\">\n", "tr>", "td colspan=\"2\">Legend",
    "/td>", "/tr>\n"]

/-- The pieces of the row of a label. -/
def rowPieces (color description : String) : List String :=
  ["tr>", "td width=\"35\" bgcolor=\"" ++ color ++ "\">", "/td>",
    "td align=\"left\">" ++ escape description, "/td>", "/tr>\n"]

/-- The pieces behind the rows. -/
def bottom : List String := ["/table>>\n];\x7d\n\x7d\n"]

/-- Texts joined by a separator are the first one and the others with the separator before each. -/
lemma intercalate_cons (sep s : String) (texts : List String) :
    String.intercalate sep (s :: texts) = s ++ String.join (texts.map (sep ++ ·)) := by
  induction texts generalizing s with
  | nil => simp
  | cons t texts ih =>
    rw [String.intercalate_cons_cons, ih, List.map_cons, String.join_cons]
    simp only [String.append_assoc]

/-- Lines, each with its line break. -/
lemma intercalate_lines {lines : List String} (h : lines ≠ []) :
    String.intercalate "\n" lines ++ "\n" = String.join (lines.map (· ++ "\n")) := by
  induction lines with
  | nil => exact absurd rfl h
  | cons s lines ih =>
    cases lines with
    | nil => simp
    | cons t lines =>
      rw [String.intercalate_cons_cons, String.append_assoc, ih (by simp)]
      simp [String.append_assoc]

/-- A row is its pieces with an opening bracket before each. -/
lemma row_eq (color description : String) :
    row color description ++ "\n" = String.join ((rowPieces color description).map ("<" ++ ·)) := by
  have hopen : "<tr><td width=\"35\" bgcolor=\"" =
      "<" ++ "tr>" ++ "<" ++ "td width=\"35\" bgcolor=\"" := by decide +kernel
  have hmiddle : "\"></td><td align=\"left\">" =
      "\">" ++ "<" ++ "/td>" ++ "<" ++ "td align=\"left\">" := by decide +kernel
  have hclose : "</td></tr>" ++ "\n" = "<" ++ "/td>" ++ "<" ++ "/tr>\n" := by decide +kernel
  -- The equation of `row` is unfolded, not rewritten with: `rw` would evaluate its texts.
  unfold row
  rw [String.append_assoc, hopen, hmiddle, hclose, rowPieces]
  simp only [List.map_cons, List.map_nil, String.join_cons, String.join_nil, String.append_empty,
    String.append_assoc, -String.reduceAppend]

lemma rows_eq_join (index : Nat) (labels : List Label) :
    String.join ((rows index labels).map (· ++ "\n")) =
      String.join (((labels.zipIdx index).flatMap fun e =>
        rowPieces (Color.text e.2) e.1.description).map ("<" ++ ·)) := by
  induction labels generalizing index with
  | nil => rfl
  | cons l ls ih =>
    rw [rows, List.map_cons, String.join_cons, ih, row_eq, List.zipIdx_cons, List.flatMap_cons,
      List.map_append, String.join_append]

/-- A legend is its pieces with an opening bracket between any two of them. -/
lemma render_eq (labels : List Label) : render labels = String.intercalate "<"
    (top ++ (labels.zipIdx.flatMap fun e => rowPieces (Color.text e.2) e.1.description) ++
      bottom) := by
  have htop : String.join (header.map (· ++ "\n")) = String.intercalate "<" top := by decide +kernel
  have hbottom : String.join (footer.map (· ++ "\n")) = String.join (bottom.map ("<" ++ ·)) := by
    decide +kernel
  have hcons : ∀ pieces : List String, String.intercalate "<" (top ++ pieces) =
      String.intercalate "<" top ++ String.join (pieces.map ("<" ++ ·)) := by
    intro pieces
    rw [top, List.cons_append, intercalate_cons, intercalate_cons, List.map_append,
      String.join_append, ← String.append_assoc]
  rw [render, intercalate_lines (by simp [header]), List.map_append, List.map_append,
    String.join_append, String.join_append, htop, hbottom, rows_eq_join, List.append_assoc, hcons,
    List.map_append, String.join_append, String.append_assoc]

/-- The pieces of a legend are cut apart again. -/
lemma splitText_render (labels : List Label) : splitText '<' (render labels) =
    top ++ (labels.zipIdx.flatMap fun e => rowPieces (Color.text e.2) e.1.description) ++
      bottom := by
  rw [render_eq]
  refine splitText_intercalate rfl (by simp [top]) ?_
  have htop : ∀ piece ∈ top, '<' ∉ piece.toList := by decide +kernel
  have hbottom : ∀ piece ∈ bottom, '<' ∉ piece.toList := by decide +kernel
  have hrow : ∀ e ∈ labels.zipIdx, ∀ piece ∈ rowPieces (Color.text e.2) e.1.description,
      '<' ∉ piece.toList := by
    intro e _
    have hcolor := Color.notMem_text (c := '<') (by decide) (by decide) e.2
    have hdescription := (notMem_escape e.1.description).1
    simp [rowPieces, hcolor, hdescription]
  intro piece hpiece
  rw [List.mem_append, List.mem_append, List.mem_flatMap] at hpiece
  rcases hpiece with (h | ⟨e, he, h⟩) | h
  · exact htop piece h
  · exact hrow e he piece h
  · exact hbottom piece h

/-! ## The reader -/

/-- The colour in a piece. -/
def readColor? (piece : String) : Option String :=
  match splitText '"' piece with
  | ["td width=", "35", " bgcolor=", color, ">"] => some color
  | _ => none

/-- The description in a piece. -/
def readDescription? (piece : String) : Option String :=
  match splitText '>' piece with
  | ["td align=\"left\"", text] => some (String.ofList (unescape text.toList))
  | _ => none

/-- The colours and descriptions in the pieces of rows. -/
def readRows? : List String → Option (List (String × String))
  | "tr>" :: color :: "/td>" :: description :: "/td>" :: "/tr>\n" :: rest =>
    match readColor? color, readDescription? description, readRows? rest with
    | some c, some d, some rows => some ((c, d) :: rows)
    | _, _, _ => none
  | pieces => if pieces = bottom then some [] else none

/-- The colours and descriptions of a legend. -/
def read? (text : String) : Option (List (String × String)) :=
  let pieces := splitText '<' text
  if pieces.take top.length = top then readRows? (pieces.drop top.length) else none

lemma readColor?_piece {color : String} (h : '"' ∉ color.toList) :
    readColor? ("td width=\"35\" bgcolor=\"" ++ color ++ "\">") = some color := by
  have hpieces : "td width=\"35\" bgcolor=\"" ++ color ++ "\">" =
      String.intercalate "\"" ["td width=", "35", " bgcolor=", color, ">"] := by
    rw [← String.toList_inj]
    simp
  rw [readColor?, hpieces, splitText_intercalate rfl (by simp) (by simpa using h)]
  rfl

lemma readDescription?_piece (description : String) :
    readDescription? ("td align=\"left\">" ++ escape description) = some description := by
  have hpieces : "td align=\"left\">" ++ escape description =
      String.intercalate ">" ["td align=\"left\"", escape description] := by
    rw [← String.toList_inj]
    simp
  rw [readDescription?, hpieces,
    splitText_intercalate rfl (by simp) (by simpa using (notMem_escape description).2)]
  simp only [unescape_escape, String.ofList_toList]

/-- The rows of labels are read back one after another. -/
lemma readRows?_pieces (labels : List (Label × Nat)) :
    readRows? ((labels.flatMap fun e => rowPieces (Color.text e.2) e.1.description) ++ bottom) =
      some (labels.map fun e => (Color.text e.2, e.1.description)) := by
  induction labels with
  | nil => decide +kernel
  | cons e labels ih =>
    have hcolor := readColor?_piece (Color.notMem_text (c := '"') (by decide) (by decide) e.2)
    rw [List.flatMap_cons, rowPieces, List.append_assoc]
    simp only [List.cons_append, List.nil_append, readRows?, hcolor, readDescription?_piece, ih,
      List.map_cons]

/-- A legend is read back, whatever the descriptions are. -/
lemma read?_render (labels : List Label) :
    read? (render labels) =
      some (labels.zipIdx.map fun e => (Color.text e.2, e.1.description)) := by
  rw [read?, splitText_render, List.append_assoc]
  simp only [List.take_left, if_true, List.drop_left, readRows?_pieces]

end Legend

namespace Writer

variable {P : Type}

/-- **The legend can be read back.** For all labels that a writer has met, with any descriptions:

* the colours of their indices and their descriptions are read from the legend, in the order of the
  indices;
* between its opening brackets stand the tags of the table, with one row for each label in this
  order, and nothing else; and
* there are no brackets in a description as it stands in the table. -/
theorem legend_readable (w : Writer P) :
    let labels := w.tally.registry.labels
    Legend.read? w.legend =
        some (labels.zipIdx.map fun e => (Color.text e.2, e.1.description)) ∧
      splitText '<' w.legend = Legend.top ++
        (labels.zipIdx.flatMap fun e => Legend.rowPieces (Color.text e.2) e.1.description) ++
          Legend.bottom ∧
      ∀ l ∈ labels, '<' ∉ (Legend.escape l.description).toList ∧
        '>' ∉ (Legend.escape l.description).toList :=
  ⟨Legend.read?_render _, Legend.splitText_render _, fun l _ => Legend.notMem_escape l.description⟩

/-- A writer that has met three labels: one with markup in its description, one with what this
markup is escaped to, and one whose description would end a row and begin another. -/
def marked : Writer Unit :=
  { Writer.new [] (.graph 0 #[] #[]) (Path.ofText "out") with
    tally :=
      { Tally.empty with
        registry := (Registry.empty.internAll
          [⟨"plain", "i < n & x"⟩, ⟨"escaped", "i &lt; n &amp; x"⟩,
            ⟨"row", "\"</td></tr>\n<tr>"⟩]).2 } }

/-- They are told apart in its legend. -/
theorem legend_readable_marked :
    Legend.read? marked.legend =
        some [("1", "i < n & x"), ("2", "i &lt; n &amp; x"), ("3", "\"</td></tr>\n<tr>")] ∧
      (⟨"row", "\"</td></tr>\n<tr>"⟩ : Label) ∈ marked.tally.registry.labels ∧
      '<' ∉ (Legend.escape "\"</td></tr>\n<tr>").toList := by
  obtain ⟨hread, -, hescaped⟩ := legend_readable marked
  have hmem : (⟨"row", "\"</td></tr>\n<tr>"⟩ : Label) ∈ marked.tally.registry.labels := by
    decide +kernel
  refine ⟨hread.trans ?_, hmem, (hescaped _ hmem).1⟩
  decide +kernel

end Writer

end StateAtlas
