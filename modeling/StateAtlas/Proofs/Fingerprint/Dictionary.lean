import StateAtlas.Proofs.Fingerprint.Discrimination

set_option autoImplicit false

/-!
# The pictures of dictionaries

A dictionary is pictured like the variables of a module: its values stand under names, in order of
the names. A key that is a text is its own name, unless it is hidden; any other key goes by the
written form of its picture. So the picture tells which values stand under each name and, if several
keys have one name, in which order they were added. Where no key is hidden and no two keys share a
name, this is the dictionary itself, whatever the order of its keys.

## Main definitions

* `StateAtlas.Value.keyName` — the name of a key in a picture.
* `StateAtlas.Value.Dictionary` — a dictionary of plain data.
* `StateAtlas.Value.SamePairs` — the same keys with the same data.
* `StateAtlas.Value.KeysApart` — keys that are told apart by their names.

## Main results

* `StateAtlas.freezeFields_key_eq_iff` — when named pictures show the same.
* `StateAtlas.Value.Dictionary.key_eq_iff` — when the pictures of dictionaries show the same.
* `StateAtlas.freeze_dictionary_key_eq_iff` — where keys are told apart, dictionaries have equal
  pictures if and only if they hold the same pairs.
* `StateAtlas.freeze_dictionary_confused` — dictionaries with keys that are not told apart.
-/

namespace StateAtlas

/-! ## Named pictures -/

/-- The entries of one name, in order. -/
def entriesUnder {α : Type} (name : String) (es : List (String × α)) : List α :=
  (es.filter fun e => e.1 = name).map Prod.snd

section Names

variable {α : Type} {es es' : List (String × α)}

/-- The entries of one name are known by what stands under it. -/
lemma filter_eq_iff_entriesUnder {name : String} :
    ((es.filter fun e => e.1 = name) = es'.filter fun e => e.1 = name) ↔
      entriesUnder name es = entriesUnder name es' := by
  have hpair : ∀ es : List (String × α),
      (es.filter fun e => e.1 = name) = (entriesUnder name es).map (name, ·) := by
    intro es
    rw [entriesUnder, List.map_map]
    refine (List.map_id'' (fun _ => rfl) _).symm.trans (List.map_congr_left fun e he => ?_)
    have hname : e.1 = name := by simpa using (List.mem_filter.mp he).2
    simp [← hname]
  refine ⟨congrArg (List.map Prod.snd), fun h => ?_⟩
  rw [hpair, hpair, h]

/-- Entries in order of their names are known by what stands under each name.

**Proof sketch.** The names are the same up to their order, since each of them has as many entries;
so they are the same in order. The entries of one name keep their order. -/
lemma byName_eq_iff :
    byName es = byName es' ↔ ∀ name, entriesUnder name es = entriesUnder name es' := by
  simp only [← filter_eq_iff_entriesUnder]
  refine ⟨fun h name => by rw [← filter_byName, h, filter_byName], fun h => ?_⟩
  refine eq_of_filter ?_ fun name => by rw [filter_byName, filter_byName, h name]
  have hcount : ∀ (es : List (String × α)) (name : String),
      (es.map Prod.fst).count name = (es.filter fun e => e.1 = name).length := by
    intro es name
    rw [List.count, List.countP_map, List.countP_eq_length_filter]
    rfl
  have hperm : (es.map Prod.fst).Perm (es'.map Prod.fst) :=
    List.perm_iff_count.mpr fun name => by rw [hcount, hcount, h name]
  refine List.Perm.eq_of_pairwise (fun _ _ _ _ => String.le_antisymm)
    (List.pairwise_map.mpr (pairwise_byName es)) (List.pairwise_map.mpr (pairwise_byName es')) ?_
  exact (((byName_perm es).map _).trans hperm).trans ((byName_perm es').map _).symm

end Names

/-- Named pictures show the same if and only if the same is shown under each name, in the same
order. -/
theorem freezeFields_key_eq_iff {fs gs : List (String × Frozen)} :
    (freezeFields fs).key = (freezeFields gs).key ↔
      ∀ name, (entriesUnder name fs).map Frozen.key = (entriesUnder name gs).map Frozen.key := by
  have hunder : ∀ (fs : List (String × Frozen)) (name : String),
      entriesUnder name (fs.map (Prod.map id Frozen.key)) =
        (entriesUnder name fs).map Frozen.key := by
    intro fs name
    simp only [entriesUnder, List.filter_map, List.map_map]
    rfl
  simp only [← hunder, ← byName_eq_iff, freezeFields_key_eq_iff_byName]

namespace Value

variable {h h' : Heap} {owner owner' : Value} {room : Nat} {k k' v v' : Value}
  {es es' : List (Value × Value)}

/-! ## The names of keys -/

/-- The name of a key in a picture: the key itself if it is a text, and the written form of its
picture otherwise. -/
def keyName (k : Value) : String := k.text?.getD (freezeWithin .empty (.str "") 0 k).text

/-- Whether a key is a hidden text. -/
def isHiddenKey (k : Value) : Bool := k.text?.any isHiddenName

/-- A constant without structure. -/
lemma Plain.isPlain {inSet : Bool} (hk : k.Plain h inSet 0) : k.isPlain = true := by
  cases hk with
  | constant hv => exact hv

/-- The picture of a key can be written. -/
lemma Plain.legible_key (hk : k.Plain h true 0) :
    (freezeWithin .empty (.str "") 0 k).Legible := by
  have hpicture : freezeWithin .empty (.str "") 0 k = freezeWithin h (.str "") 0 k :=
    freezeWithin_constant_congr hk.isPlain
  exact hpicture ▸ hk.legible

/-- Keys that are no texts are told apart by their names. -/
lemma eq_of_keyName (hk : k.Plain h true 0) (hk' : k'.Plain h' true 0)
    (htext : k.text?.isSome = k'.text?.isSome) (hname : k.keyName = k'.keyName) : k = k' := by
  have text : ∀ {k : Value}, k.isPlain = true → ∀ n, k.text? = some n → k = .str n := by
    intro k hk n hn
    cases k with
    | str s => exact congrArg Value.str (Option.some.inj hn)
    | none | bool | int | bytes => simp [text?, content] at hn
    | _ => simp [Value.isPlain] at hk
  rw [keyName, keyName] at hname
  cases hn : k.text? with
  | some n =>
    rw [hn, Option.isSome_some, eq_comm, Option.isSome_iff_exists] at htext
    obtain ⟨n', hn'⟩ := htext
    rw [hn, hn', Option.getD_some, Option.getD_some] at hname
    rw [text hk.isPlain n hn, text hk'.isPlain n' hn', hname]
  | none =>
    rw [hn, Option.isSome_none, eq_comm, Option.isSome_eq_false_iff, Option.isNone_iff_eq_none]
      at htext
    rw [hn, htext, Option.getD_none, Option.getD_none] at hname
    exact eq_of_key hk.isPlain hk'.isPlain
      (congrArg Frozen.key (hk.legible_key.eq_of_text hk'.legible_key hname))

/-- Keys that are told apart by their names: none of them is hidden, and no text among them reads
like the picture of another one. -/
structure KeysApart (ks : List Value) : Prop where
  shown : ∀ k ∈ ks, k.isHiddenKey = false
  apart : ∀ k ∈ ks, ∀ k' ∈ ks, k.text?.isSome = true → k'.text? = Option.none →
    k.keyName ≠ k'.keyName

/-- So they are. -/
lemma KeysApart.eq {ks : List Value} (hks : KeysApart ks) (hmem : k ∈ ks) (hmem' : k' ∈ ks)
    (hk : k.Plain h true 0) (hk' : k'.Plain h' true 0) (hname : k.keyName = k'.keyName) :
    k = k' := by
  refine eq_of_keyName hk hk' ?_ hname
  cases hn : k.text? with
  | some n =>
    cases hn' : k'.text? with
    | some n' => rfl
    | none => exact absurd hname (hks.apart k hmem k' hmem' (by simp [hn]) hn')
  | none =>
    cases hn' : k'.text? with
    | some n' => exact absurd hname.symm (hks.apart k' hmem' k hmem (by simp [hn']) hn)
    | none => rfl

/-! ## Dictionaries -/

/-- A dictionary of plain data with the given entries. Its keys are different constants, which can
be written; its values nest no more than `room` levels of structure. -/
structure Dictionary (h : Heap) (room : Nat) (v : Value) (es : List (Value × Value)) : Prop where
  entries : h.object? v = some (.dict es.toArray)
  keys : ∀ e ∈ es, e.1.Plain h true 0
  distinct : (es.map Prod.fst).Nodup
  values : ∀ e ∈ es, e.2.Plain h false room

/-- The same keys with the same data. -/
def SamePairs (h h' : Heap) (room : Nat) (es es' : List (Value × Value)) : Prop :=
  (∀ e ∈ es, ∃ e' ∈ es', e.1 = e'.1 ∧ Same h h' room e.2 e'.2) ∧
    ∀ e' ∈ es', ∃ e ∈ es, e.1 = e'.1 ∧ Same h h' room e.2 e'.2

/-- The values of the keys of one name, in the order in which they were added. -/
def valuesUnder (name : String) (es : List (Value × Value)) : List Value :=
  (es.filter fun e => !e.1.isHiddenKey && e.1.keyName = name).map Prod.snd

/-- A value stands under the name of a key. -/
lemma mem_valuesUnder {name : String} : v ∈ valuesUnder name es ↔
    ∃ e ∈ es, e.1.isHiddenKey = false ∧ e.1.keyName = name ∧ e.2 = v := by
  simp [valuesUnder, and_assoc]

/-- If keys are told apart, there is one value under the name of each. -/
lemma valuesUnder_keyName {e : Value × Value} (he : e ∈ es) (hshown : e.1.isHiddenKey = false)
    (hdistinct : (es.map Prod.fst).Nodup)
    (hname : ∀ e' ∈ es, e'.1.keyName = e.1.keyName → e'.1 = e.1) :
    valuesUnder e.1.keyName es = [e.2] := by
  have hfilter : (es.filter fun e' => !e'.1.isHiddenKey && e'.1.keyName = e.1.keyName) = [e] := by
    refine List.perm_singleton.mp ((List.perm_ext_iff_of_nodup
      (hdistinct.of_map.filter _) (List.nodup_singleton e)).mpr fun e' => ?_)
    simp only [List.mem_filter, Bool.and_eq_true, Bool.not_eq_true', decide_eq_true_eq,
      List.mem_singleton]
    constructor
    · rintro ⟨he', -, hk⟩
      exact List.inj_on_of_nodup_map hdistinct he' he (hname e' he' hk)
    · rintro rfl
      exact ⟨he, hshown, rfl⟩
  rw [valuesUnder, hfilter, List.map_singleton]

namespace Dictionary

/-- The picture of a dictionary shows its values under the names of their keys. -/
lemma freezeWithin_eq (hd : v.Dictionary h room es) : freezeWithin h owner (room + 1) v =
    .tuple [.str "dict", freezeFields ((es.filter fun e => !e.1.isHiddenKey).map fun e =>
      (e.1.keyName, freezeWithin h owner room e.2))] := by
  obtain ⟨a, hcontent, ha⟩ : ∃ a, v.content = .ref a ∧ h.get? a = some (.dict es.toArray) := by
    have hobject := hd.entries
    rw [Heap.object?] at hobject
    split at hobject
    · rename_i a hcontent
      exact ⟨a, hcontent, hobject⟩
    · simp at hobject
  rw [freezeWithin.eq_def]
  simp only [constant?, hcontent, ha]
  refine congrArg (fun fs => Frozen.tuple [.str "dict", freezeFields fs])
    ((congrArg (List.map _) (List.filter_congr fun e _ => ?hidden)).trans
      (List.map_congr_left fun e he => ?named))
  case hidden =>
    rw [isHiddenKey]
    cases e.1.text? <;> rfl
  case named =>
    have hplain := hd.keys e (List.mem_filter.mp he).1
    have hkey : freezeWithin h owner room e.1 = freezeWithin .empty (.str "") 0 e.1 :=
      freezeWithin_constant_congr hplain.isPlain
    rw [keyName, hkey, hplain.legible_key.written]
    cases e.1.text? <;> rfl

/-- The picture of a dictionary can be made. -/
lemma fault? (hd : v.Dictionary h room es) :
    (freezeWithin h owner (room + 1) v).fault? = Option.none := by
  rw [hd.freezeWithin_eq, Frozen.fault?_pair, freezeFields, Frozen.fault?_tuple_eq_none]
  intro f hf
  obtain ⟨z, hz, rfl⟩ := List.mem_map.mp hf
  obtain ⟨e, he, rfl⟩ := List.mem_map.mp (List.mem_mergeSort.mp hz)
  rw [Frozen.fault?_pair]
  exact (hd.values e (List.mem_filter.mp he).1).fault?

/-- What is shown under a name are the pictures of the values there. -/
lemma entriesUnder_eq (name : String) (es : List (Value × Value)) :
    entriesUnder name ((es.filter fun e => !e.1.isHiddenKey).map fun e =>
      (e.1.keyName, freezeWithin h owner room e.2)) =
        (valuesUnder name es).map (freezeWithin h owner room) := by
  rw [entriesUnder, List.filter_map, List.filter_filter, List.map_map, valuesUnder, List.map_map]
  simp only [Function.comp_def, Bool.and_comm]

/-- The pictures of dictionaries show the same if and only if under every name the same data stands
in the same order. -/
theorem key_eq_iff (hd : v.Dictionary h room es) (hd' : v'.Dictionary h' room es') :
    (freezeWithin h owner (room + 1) v).key = (freezeWithin h' owner' (room + 1) v').key ↔
      ∀ name, List.Forall₂ (Same h h' room) (valuesUnder name es) (valuesUnder name es') := by
  have plain : ∀ {h : Heap} {v : Value} {es : List (Value × Value)}, v.Dictionary h room es →
      ∀ {name : String}, ∀ w ∈ valuesUnder name es, w.Plain h false room := by
    intro h v es hd name w hw
    obtain ⟨e, he, -, -, rfl⟩ := mem_valuesUnder.mp hw
    exact hd.values e he
  rw [hd.freezeWithin_eq, hd'.freezeWithin_eq, Frozen.key_tuple_eq_iff]
  simp only [List.map_cons, List.map_nil, List.cons.injEq, and_true, true_and,
    freezeFields_key_eq_iff, entriesUnder_eq, List.map_map]
  refine forall_congr' fun name => ⟨fun hkeys => ?_, fun hsame => ?_⟩
  · exact forall₂_of_map_eq hkeys fun w hw w' hw' hk =>
      (plain hd w hw).same_of_key (plain hd' w' hw') hk
  · exact map_eq_of_forall₂ hsame fun w hw w' hw' hww' =>
      congrArg Frozen.key ((plain hd w hw).freezeWithin_eq (plain hd' w' hw') hww')

/-- If keys are told apart, what stands under the names are the pairs themselves. -/
lemma forall_valuesUnder_iff (hd : v.Dictionary h room es) (hd' : v'.Dictionary h' room es')
    (hapart : KeysApart ((es ++ es').map Prod.fst)) :
    (∀ name, List.Forall₂ (Same h h' room) (valuesUnder name es) (valuesUnder name es')) ↔
      SamePairs h h' room es es' := by
  have hmem : ∀ e ∈ es, e.1 ∈ (es ++ es').map Prod.fst := fun e he =>
    List.mem_map_of_mem (List.mem_append_left _ he)
  have hmem' : ∀ e' ∈ es', e'.1 ∈ (es ++ es').map Prod.fst := fun e' he' =>
    List.mem_map_of_mem (List.mem_append_right _ he')
  have single : ∀ e ∈ es, valuesUnder e.1.keyName es = [e.2] := fun e he =>
    valuesUnder_keyName he (hapart.shown _ (hmem e he)) hd.distinct fun e₂ he₂ =>
      hapart.eq (hmem e₂ he₂) (hmem e he) (hd.keys e₂ he₂) (hd.keys e he)
  have single' : ∀ e' ∈ es', valuesUnder e'.1.keyName es' = [e'.2] := fun e' he' =>
    valuesUnder_keyName he' (hapart.shown _ (hmem' e' he')) hd'.distinct fun e₂ he₂ =>
      hapart.eq (hmem' e₂ he₂) (hmem' e' he') (hd'.keys e₂ he₂) (hd'.keys e' he')
  constructor
  · refine fun hsame => ⟨fun e he => ?_, fun e' he' => ?_⟩
    · have hname := hsame e.1.keyName
      rw [single e he, List.forall₂_cons_left_iff] at hname
      obtain ⟨w, ws, hw, -, hws⟩ := hname
      obtain ⟨e', he', -, hk, rfl⟩ := mem_valuesUnder.mp (hws ▸ List.mem_cons_self : w ∈ _)
      exact ⟨e', he', (hapart.eq (hmem' e' he') (hmem e he) (hd'.keys e' he') (hd.keys e he)
        hk).symm, hw⟩
    · have hname := hsame e'.1.keyName
      rw [single' e' he', List.forall₂_cons_right_iff] at hname
      obtain ⟨w, ws, hw, -, hws⟩ := hname
      obtain ⟨e, he, -, hk, rfl⟩ := mem_valuesUnder.mp (hws ▸ List.mem_cons_self : w ∈ _)
      exact ⟨e, he, hapart.eq (hmem e he) (hmem' e' he') (hd.keys e he) (hd'.keys e' he') hk, hw⟩
  · rintro ⟨hsub, hsup⟩ name
    by_cases hname : ∃ e ∈ es, e.1.keyName = name
    · obtain ⟨e, he, rfl⟩ := hname
      obtain ⟨e', he', hk, hsame⟩ := hsub e he
      rw [single e he, hk, single' e' he']
      exact .cons hsame .nil
    · have hnil : valuesUnder name es = [] := by
        refine List.eq_nil_iff_forall_not_mem.mpr fun w hw => hname ?_
        obtain ⟨e, he, -, hk, -⟩ := mem_valuesUnder.mp hw
        exact ⟨e, he, hk⟩
      have hnil' : valuesUnder name es' = [] := by
        refine List.eq_nil_iff_forall_not_mem.mpr fun w hw => hname ?_
        obtain ⟨e', he', -, hk', -⟩ := mem_valuesUnder.mp hw
        obtain ⟨e, he, hk, -⟩ := hsup e' he'
        exact ⟨e, he, hk ▸ hk'⟩
      rw [hnil, hnil']
      exact .nil

end Dictionary

end Value

open Value

variable {h h' : Heap} {owner owner' : String} {depth : Int} {v v' : Value}
  {es es' : List (Value × Value)}

/-- Where the keys of two dictionaries are told apart, and nothing lies deeper than pictures show,
their pictures can be made, and are equal if and only if they hold the same keys with the same data,
whatever the order in which these were added. -/
theorem freeze_dictionary_key_eq_iff (hdepth : depth < maxFreezeDepth)
    (hd : v.Dictionary h ((maxFreezeDepth : Int) - 1 - depth).toNat es)
    (hd' : v'.Dictionary h' ((maxFreezeDepth : Int) - 1 - depth).toNat es')
    (hapart : KeysApart ((es ++ es').map Prod.fst)) :
    ((freeze h owner depth v).fault? = Option.none ∧
      (freeze h' owner' depth v').fault? = Option.none) ∧
    ((freeze h owner depth v).key = (freeze h' owner' depth v').key ↔
      SamePairs h h' ((maxFreezeDepth : Int) - 1 - depth).toNat es es') := by
  have hroom : ((maxFreezeDepth : Int) - depth).toNat =
      ((maxFreezeDepth : Int) - 1 - depth).toNat + 1 := by omega
  rw [freeze, freeze, hroom]
  refine ⟨⟨hd.fault?, hd'.fault?⟩, ?_⟩
  rw [hd.key_eq_iff hd', hd.forall_valuesUnder_iff hd' hapart]

/-- Two dictionaries next to each other, and a list. -/
def drawer (es es' : List (Value × Value)) (items : List Value) : Heap :=
  ⟨#[.dict es.toArray, .dict es'.toArray, .list items.toArray]⟩

/-- A dictionary in a drawer holds constants and the list. -/
lemma dictionary_drawer (es es' : List (Value × Value)) (items : List Value)
    (hkeys : ∀ e ∈ es ++ es', e.1.isPlain = true ∧ ∀ i, e.1 = .int i → i = 1)
    (hdistinct : (es.map Prod.fst).Nodup ∧ (es'.map Prod.fst).Nodup)
    (hvalues : ∀ e ∈ es ++ es', e.2.isPlain = true ∨ e.2 = .ref 2)
    (hitems : ∀ v ∈ items, v.isPlain = true) :
    (Value.ref 0).Dictionary (drawer es es' items) 3 es ∧
      (Value.ref 1).Dictionary (drawer es es' items) 3 es' := by
  have key : ∀ e ∈ es ++ es', e.1.Plain (drawer es es' items) true 0 := by
    refine fun e he => .constant (hkeys e he).1 fun _ i hi => ?_
    obtain rfl := (hkeys e he).2 i hi
    decide +kernel
  have value : ∀ e ∈ es ++ es', e.2.Plain (drawer es es' items) false 3 := by
    intro e he
    rcases hvalues e he with hv | hv
    · exact .constant hv (by simp)
    · rw [hv]
      exact .container (show _ = some (.list, items) from rfl)
        (fun v hv => .constant (hitems v hv) (by simp)) (by simp)
  exact ⟨⟨rfl, fun e he => key e (List.mem_append_left _ he), hdistinct.1,
      fun e he => value e (List.mem_append_left _ he)⟩,
    ⟨rfl, fun e he => key e (List.mem_append_right _ he), hdistinct.2,
      fun e he => value e (List.mem_append_right _ he)⟩⟩

/-- The same pairs are pictured alike in another order: there is a list under an integer, nothing
under a truth value, and a text under a text. -/
theorem freeze_dictionary_drawer :
    let h := drawer [(.int 1, .ref 2), (.bool false, .none), (.str "a", .str "('int', 1)")]
      [(.str "a", .str "('int', 1)"), (.int 1, .ref 2), (.bool false, .none)] [.int 1, .str "a"]
    (freeze h "drawer" 0 (.ref 0)).key = (freeze h "drawer" 0 (.ref 1)).key := by
  intro h
  obtain ⟨hd, hd'⟩ := dictionary_drawer
    [(.int 1, .ref 2), (.bool false, .none), (.str "a", .str "('int', 1)")]
    [(.str "a", .str "('int', 1)"), (.int 1, .ref 2), (.bool false, .none)]
    [.int 1, .str "a"] (by simp [isPlain]) (by simp) (by simp [isPlain])
    (by simp [isPlain])
  have list : Same h h 3 (.ref 2) (.ref 2) := ⟨rfl, .cons ⟨rfl, rfl⟩ (.cons ⟨rfl, rfl⟩ .nil)⟩
  have none : Same h h 3 .none .none := ⟨rfl, rfl⟩
  have text : Same h h 3 (.str "('int', 1)") (.str "('int', 1)") := ⟨rfl, rfl⟩
  refine (freeze_dictionary_key_eq_iff (by decide) hd hd'
    ⟨by decide +kernel, by decide +kernel⟩).2.mpr ⟨?_, ?_⟩
  · simpa using ⟨list, none, text⟩
  · simpa using ⟨text, list, none⟩

/-- The pictures of two dictionaries with the given entries tell whether they hold the same pairs. -/
def PicturesTell (es es' : List (Value × Value)) : Prop :=
  let h := drawer es es' []
  (freeze h "drawer" 0 (.ref 0)).key = (freeze h "drawer" 0 (.ref 1)).key ↔ SamePairs h h 3 es es'

/-- Pictures do not tell an integer from the text that reads like its picture, and they do not show
hidden texts. If the integer and the text are keys of one dictionary, the picture depends on the
order in which they were added. -/
theorem freeze_dictionary_confused :
    ¬PicturesTell [(.int 1, .none)] [(.str "('int', 1)", .none)] ∧
    ¬PicturesTell [(.str "__a__", .none)] [] ∧
    ¬PicturesTell [(.int 1, .bool false), (.str "('int', 1)", .bool true)]
      [(.str "('int', 1)", .bool true), (.int 1, .bool false)] := by
  refine ⟨fun h => ?_, fun h => ?_, fun h => ?_⟩
  · have hpairs := h.mp (by decide +kernel)
    simp [SamePairs] at hpairs
  · have hpairs := h.mp (by decide +kernel)
    simp [SamePairs] at hpairs
  · have truth : ∀ h b, Same h h 3 (.bool b) (.bool b) := fun _ _ => ⟨rfl, rfl⟩
    have hkey := h.mpr ⟨by simpa using ⟨truth _ false, truth _ true⟩,
      by simpa using ⟨truth _ true, truth _ false⟩⟩
    -- under the common name, the values stand in the order in which they were added
    obtain ⟨hd, hd'⟩ := dictionary_drawer
      [(.int 1, .bool false), (.str "('int', 1)", .bool true)]
      [(.str "('int', 1)", .bool true), (.int 1, .bool false)] []
      (by simp [isPlain]) (by simp) (by simp [isPlain]) (by simp)
    have hunder := (hd.key_eq_iff hd').mp hkey "('int', 1)"
    have hname : (Value.int 1).keyName = "('int', 1)" ∧
        (Value.str "('int', 1)").keyName = "('int', 1)" ∧ (Value.int 1).isHiddenKey = false ∧
          (Value.str "('int', 1)").isHiddenKey = false := by decide +kernel
    simp [valuesUnder, hname, Same, Heap.contents?] at hunder

end StateAtlas
