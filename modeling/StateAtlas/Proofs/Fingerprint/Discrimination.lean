import StateAtlas.Proofs.Data.Bindings
import StateAtlas.Proofs.Fingerprint.Plain

set_option autoImplicit false

/-!
# What fingerprints tell apart

Where variables hold plain data, two fingerprints are equal exactly if the boundaries are, the
frames agree one by one in their code and their position, and the variables of functions and of the
module hold the same data under the same names. The order in which variables were bound does not
matter, nor that in which the members of a set are met. Nothing stands in the way of such fingerprints.

Names that start and end in two underscores are left out everywhere: variables of functions are no
exception.

## Main definitions

* `StateAtlas.Scene.Holds` — the same plain data under the same shown names.
* `StateAtlas.Scene.FrameAgrees` — frames with the same code, position and local variables.
* `StateAtlas.Scene.Plain` — all that a fingerprint shows is plain data.

## Main results

* `StateAtlas.Scene.fingerprint_key_eq_iff` — when two fingerprints are equal.
-/

namespace StateAtlas

/-- Equal pictures of named pictures show the same under every name. -/
lemma find?_key_of_freezeFields {fs gs : List (String × Frozen)} (hfs : (fs.map Prod.fst).Nodup)
    (hgs : (gs.map Prod.fst).Nodup) (hk : (freezeFields fs).key = (freezeFields gs).key)
    (name : String) :
    (Bindings.find? name fs).map Frozen.key = (Bindings.find? name gs).map Frozen.key := by
  have hperm : (fs.map (Prod.map id Frozen.key)).Perm (gs.map (Prod.map id Frozen.key)) := by
    have hsorted := List.Perm.of_eq (freezeFields_key_eq_iff_byName.mp hk)
    exact ((byName_perm _).symm.trans hsorted).trans (byName_perm _)
  rw [Bindings.perm_iff_find?_eq (by simpa [Function.comp_def] using hfs)
    (by simpa [Function.comp_def] using hgs)] at hperm
  have hname := hperm name
  rwa [← Bindings.find?_map, ← Bindings.find?_map]

/-- Named pictures that are the same under every name have one picture. -/
lemma freezeFields_eq_of_find? {fs gs : List (String × Frozen)} (hfs : (fs.map Prod.fst).Nodup)
    (hgs : (gs.map Prod.fst).Nodup)
    (h : ∀ name, Bindings.find? name fs = Bindings.find? name gs) :
    freezeFields fs = freezeFields gs := by
  have hperm : fs.Perm gs := (Bindings.perm_iff_find?_eq hfs hgs).mpr h
  have hsorted : byName fs = byName gs :=
    byName_eq_of_perm hperm fun e he e' he' => List.inj_on_of_nodup_map hfs he he'
  simp only [freezeFields, hsorted]

namespace Scene

variable {s s' : Scene} {owner owner' : Value} {es es' : List (String × Value)}

/-! ## Named values -/

/-- The same plain data under the same names, leaving out hidden names. -/
def Holds (s s' : Scene) (es es' : List (String × Value)) : Prop :=
  ∀ name, isHiddenName name = false →
    Option.Rel (Value.Same s.heap s'.heap (maxFreezeDepth - 1)) (Bindings.find? name es)
      (Bindings.find? name es')

/-- Different names, and plain data under those that are not hidden. -/
structure PlainNames (s : Scene) (es : List (String × Value)) : Prop where
  nodup : (es.map Prod.fst).Nodup
  plain : ∀ e ∈ es, isHiddenName e.1 = false → e.2.Plain s.heap false (maxFreezeDepth - 1)

/-- The order in which names were bound does not matter. -/
lemma Holds.of_perm (hnodup : (es.map Prod.fst).Nodup) (hperm : es.Perm es')
    (hsame : ∀ e ∈ es, Value.Same s.heap s'.heap (maxFreezeDepth - 1) e.2 e.2) :
    Holds s s' es es' := by
  intro name _
  rw [← (Bindings.perm_iff_find?_eq hnodup ((hperm.map Prod.fst).nodup hnodup)).mp hperm name]
  cases hv : Bindings.find? name es with
  | none => exact .none
  | some v => exact .some (hsame (name, v) ((Bindings.find?_eq_some_iff hnodup).mp hv))

/-- The pictures of named values, by their names. -/
def pictures (s : Scene) (owner : Value) (es : List (String × Value)) : List (String × Frozen) :=
  (es.filter fun e => !isHiddenName e.1).map fun e =>
    (e.1, freezeWithin s.heap owner (maxFreezeDepth - 1) e.2)

/-- The picture of named values shows these pictures. -/
lemma freezeNames_eq (s : Scene) (owner : Value) (es : List (String × Value)) :
    s.freezeNames owner es = freezeFields (s.pictures owner es) := rfl

/-- The picture under a name is that of the value. -/
lemma find?_pictures {name : String} (hname : isHiddenName name = false) :
    Bindings.find? name (s.pictures owner es) =
      (Bindings.find? name es).map (freezeWithin s.heap owner (maxFreezeDepth - 1)) := by
  rw [pictures, Bindings.find?_map, Bindings.find?_filter (fun name => !isHiddenName name)]
  simp [hname]

/-- There is no picture under a hidden name. -/
lemma find?_pictures_of_hidden {name : String} (hname : isHiddenName name = true) :
    Bindings.find? name (s.pictures owner es) = none := by
  rw [pictures, Bindings.find?_map, Bindings.find?_filter (fun name => !isHiddenName name)]
  simp [hname]

/-- Pictures have different names if the values have. -/
lemma nodup_pictures (s : Scene) (owner : Value) (h : (es.map Prod.fst).Nodup) :
    ((s.pictures owner es).map Prod.fst).Nodup := by
  rw [pictures, List.map_map]
  exact h.sublist (List.filter_sublist.map Prod.fst)

/-- What is found under a shown name is plain. -/
lemma PlainNames.of_find? (h : s.PlainNames es) {name : String} {v : Value}
    (hname : isHiddenName name = false) (hv : Bindings.find? name es = some v) :
    v.Plain s.heap false (maxFreezeDepth - 1) :=
  h.plain _ ((Bindings.find?_eq_some_iff h.nodup).mp hv) hname

/-- The picture of named values can be made. -/
lemma PlainNames.fault? (h : s.PlainNames es) : (s.freezeNames owner es).fault? = none := by
  rw [freezeNames_eq, freezeFields, Frozen.fault?_tuple_eq_none]
  simp only [List.mem_map, List.mem_mergeSort, forall_exists_index, and_imp,
    forall_apply_eq_imp_iff₂, Frozen.fault?_pair]
  intro e he
  obtain ⟨e', he', rfl⟩ := List.mem_map.mp he
  obtain ⟨hmem, hname⟩ := List.mem_filter.mp he'
  exact (h.plain e' hmem (by simpa using hname)).fault?

/-- Named values have equal pictures exactly if they hold the same.

**Proof sketch.** A picture shows every value under its name. Conversely the pictures of the values
are equal, and they are put in order of their names. -/
lemma freezeNames_key_eq_iff (h : s.PlainNames es) (h' : s'.PlainNames es') :
    (s.freezeNames owner es).key = (s'.freezeNames owner' es').key ↔ Holds s s' es es' := by
  have hnodup := nodup_pictures s owner h.nodup
  have hnodup' := nodup_pictures s' owner' h'.nodup
  rw [freezeNames_eq, freezeNames_eq]
  constructor
  · intro hk name hname
    have hfind := find?_key_of_freezeFields hnodup hnodup' hk name
    rw [find?_pictures hname, find?_pictures hname, Option.map_map, Option.map_map] at hfind
    cases hv : Bindings.find? name es with
    | none =>
      cases hw : Bindings.find? name es' with
      | none => exact .none
      | some w => simp [hv, hw] at hfind
    | some v =>
      cases hw : Bindings.find? name es' with
      | none => simp [hv, hw] at hfind
      | some w =>
        rw [hv, hw] at hfind
        exact .some ((h.of_find? hname hv).same_of_key (h'.of_find? hname hw)
          (Option.some.inj hfind))
  · intro hholds
    refine congrArg Frozen.key (freezeFields_eq_of_find? hnodup hnodup' fun name => ?_)
    cases hname : isHiddenName name with
    | true => rw [find?_pictures_of_hidden hname, find?_pictures_of_hidden hname]
    | false =>
      have hrel := hholds name hname
      rw [find?_pictures hname, find?_pictures hname]
      cases hv : Bindings.find? name es with
      | none =>
        rw [hv] at hrel
        cases hw : Bindings.find? name es' with
        | none => rfl
        | some w => rw [hw] at hrel; cases hrel
      | some v =>
        rw [hv] at hrel
        cases hw : Bindings.find? name es' with
        | none => rw [hw] at hrel; cases hrel
        | some w =>
          rw [hw] at hrel
          obtain ⟨hsame⟩ := hrel
          rw [Option.map_some, Option.map_some,
            (h.of_find? hname hv).freezeWithin_eq (h'.of_find? hname hw) hsame]

/-! ## Frames -/

/-- The local variables of a frame that are its own: a module and the body of a class have none. -/
def ownLocals (s : Scene) (f : FrameId) : List (String × Value) :=
  match s.frame? f with
  | some fr => if fr.optimized then s.locals f else []
  | none => []

/-- Frames with the same code and position, the local variables of which hold the same. -/
def FrameAgrees (s s' : Scene) (f f' : FrameId) : Prop :=
  ∃ fr fr', s.frame? f = some fr ∧ s'.frame? f' = some fr' ∧
    s.codeName f = s'.codeName f' ∧ fr.line = fr'.line ∧ fr.position = fr'.position ∧
      Holds s s' (s.ownLocals f) (s'.ownLocals f')

/-- The variables of a module; none without a module. -/
def globals (s : Scene) (module : Option Address) : List (String × Value) :=
  match module with
  | some a => (s.heap.variables a).entries
  | none => []

/-- All that a fingerprint shows is plain data: the local variables of the frames, and the variables
of the module. The module has a name. -/
structure Plain (s : Scene) (frames : List FrameId) (module : Option Address) : Prop where
  named : (s.ownerName? module).isSome = true
  exists_frame : ∀ f ∈ frames, ∃ fr, s.frame? f = some fr
  locals : ∀ f ∈ frames, s.PlainNames (s.ownLocals f)
  module : s.PlainNames (s.globals module)

/-- Without names there is nothing in the picture. -/
lemma freezeNames_nil (s : Scene) (owner : Value) : s.freezeNames owner [] = .tuple [] := by
  simp [freezeNames, freezeFields]

/-- The picture of a frame that exists. -/
lemma freezeFrame_eq {f : FrameId} {fr : Frame} (hf : s.frame? f = some fr) :
    s.freezeFrame owner f = .tuple [.str (s.codeName f), .int fr.line, .int fr.position,
      s.freezeNames owner (s.ownLocals f)] := by
  simp only [freezeFrame, codeName, ownLocals, hf]
  split
  · rfl
  · rw [freezeNames_nil]

/-- The pictures of frames are equal exactly if the frames agree. -/
lemma freezeFrame_key_eq_iff {f f' : FrameId} {fr fr' : Frame} (hf : s.frame? f = some fr)
    (hf' : s'.frame? f' = some fr') (h : s.PlainNames (s.ownLocals f))
    (h' : s'.PlainNames (s'.ownLocals f')) :
    (s.freezeFrame owner f).key = (s'.freezeFrame owner' f').key ↔ FrameAgrees s s' f f' := by
  rw [freezeFrame_eq hf, freezeFrame_eq hf', Frozen.key_tuple_eq_iff]
  simp only [List.map_cons, List.map_nil, List.cons.injEq, and_true,
    freezeNames_key_eq_iff h h']
  have hstr : ∀ t u : String, Frozen.key (.str t) = Frozen.key (.str u) ↔ t = u :=
    fun t u => ⟨Frozen.eq_of_key_str, congrArg fun t => Frozen.key (.str t)⟩
  have hint : ∀ i j : Int, Frozen.key (.int i) = Frozen.key (.int j) ↔ i = j :=
    fun i j => ⟨Frozen.eq_of_key_int, congrArg fun i => Frozen.key (.int i)⟩
  rw [hstr, hint, hint]
  constructor
  · exact fun hagree => ⟨fr, fr', hf, hf', hagree⟩
  · rintro ⟨_, _, hf₁, hf₁', hagree⟩
    obtain rfl := Option.some.inj (hf.symm.trans hf₁)
    obtain rfl := Option.some.inj (hf'.symm.trans hf₁')
    exact hagree

/-- The picture of a frame with plain local variables can be made. -/
lemma fault?_freezeFrame {f : FrameId} {fr : Frame} (hf : s.frame? f = some fr)
    (h : s.PlainNames (s.ownLocals f)) : (s.freezeFrame owner f).fault? = none := by
  rw [freezeFrame_eq hf, Frozen.fault?_tuple_eq_none]
  simp [h.fault?, Frozen.fault?]

variable {frames frames' : List FrameId} {module module' : Option Address} {b b' : Frozen}

/-- A fingerprint shows the boundary, the frames and the variables of the module, if the module has
a name. -/
lemma exists_fingerprint_eq (frames : List FrameId) (b : Frozen)
    (h : (s.ownerName? module).isSome = true) :
    ∃ owner, s.fingerprint frames module b =
      .tuple [b, .tuple (frames.map (s.freezeFrame owner)),
        s.freezeNames owner (s.globals module)] := by
  obtain ⟨owner, howner⟩ := Option.isSome_iff_exists.mp h
  refine ⟨owner, ?_⟩
  simp only [fingerprint, howner]
  cases module with
  | none => rw [globals, freezeNames_nil]
  | some a => rfl

/-- Nothing goes wrong in a fingerprint of plain data, the boundary apart. -/
lemma Plain.fault?_fingerprint (h : s.Plain frames module) :
    (s.fingerprint frames module b).fault? = b.fault? := by
  obtain ⟨owner, hpicture⟩ := exists_fingerprint_eq frames b h.named
  have hframes : (Frozen.tuple (frames.map (s.freezeFrame owner))).fault? = none := by
    rw [Frozen.fault?_tuple_eq_none]
    simp only [List.mem_map, forall_exists_index, and_imp, forall_apply_eq_imp_iff₂]
    intro f hf
    obtain ⟨fr, hfr⟩ := h.exists_frame f hf
    exact fault?_freezeFrame hfr (h.locals f hf)
  rw [hpicture]
  rw [Frozen.fault?, Frozen.faultOf?, Frozen.faultOf?, Frozen.faultOf?, Frozen.faultOf?, hframes,
    h.module.fault?]
  cases b.fault? <;> rfl

/-- Where all variables hold plain data, fingerprints are equal exactly if the boundaries are equal,
the frames agree one by one, and the variables of the modules hold the same. Both of them can be
made, as far as the boundaries can be pictured. -/
theorem fingerprint_key_eq_iff (h : s.Plain frames module) (h' : s'.Plain frames' module') :
    ((s.fingerprint frames module b).fault? = b.fault? ∧
      (s'.fingerprint frames' module' b').fault? = b'.fault?) ∧
    ((s.fingerprint frames module b).key = (s'.fingerprint frames' module' b').key ↔
      b.key = b'.key ∧ List.Forall₂ (FrameAgrees s s') frames frames' ∧
        Holds s s' (s.globals module) (s'.globals module')) := by
  refine ⟨⟨h.fault?_fingerprint, h'.fault?_fingerprint⟩, ?_⟩
  obtain ⟨owner, hpicture⟩ := exists_fingerprint_eq frames b h.named
  obtain ⟨owner', hpicture'⟩ := exists_fingerprint_eq frames' b' h'.named
  have hframe : ∀ f ∈ frames, ∀ f' ∈ frames', (s.freezeFrame owner f).key =
      (s'.freezeFrame owner' f').key ↔ FrameAgrees s s' f f' := by
    intro f hf f' hf'
    obtain ⟨fr, hfr⟩ := h.exists_frame f hf
    obtain ⟨fr', hfr'⟩ := h'.exists_frame f' hf'
    exact freezeFrame_key_eq_iff hfr hfr' (h.locals f hf) (h'.locals f' hf')
  have hframes : (Frozen.tuple (frames.map (s.freezeFrame owner))).key =
      (Frozen.tuple (frames'.map (s'.freezeFrame owner'))).key ↔
      List.Forall₂ (FrameAgrees s s') frames frames' := by
    rw [Frozen.key_tuple_eq_iff, List.map_map, List.map_map]
    exact ⟨fun hkeys => forall₂_of_map_eq hkeys fun f hf f' hf' => (hframe f hf f' hf').mp,
      fun hagree => map_eq_of_forall₂ hagree fun f hf f' hf' => (hframe f hf f' hf').mpr⟩
  rw [hpicture, hpicture', Frozen.key_tuple_eq_iff]
  simp only [List.map_cons, List.map_nil, List.cons.injEq, and_true]
  rw [freezeNames_key_eq_iff h.module h'.module, hframes]

/-- A module, a set of `members` and a list that holds the set; the list is the local variable of a
function that runs. -/
def shelf (bindings : List (String × Value)) (frozen : Bool) (members : Array Value) : Scene where
  heap := ⟨#[.module ((Bindings.ofList bindings).set "__name__" (.str "shelf")),
    .set frozen members, .list #[.ref 1]]⟩
  modules := .empty
  frames := #[{
    globals := 0, name := "f", qualname := some "f", file := "shelf.py", line := 1, position := 2,
    optimized := true, caller := none, locals := .slots #["items"] #[.value (.ref 2)] }]

/-- A shelf of different texts shows plain data. -/
lemma plain_shelf {bindings : List (String × Value)} {frozen : Bool} (texts : List String)
    (hb : ∀ e ∈ ((Bindings.ofList bindings).set "__name__" (.str "shelf")).entries,
      e.2.isPlain = true) (ht : texts.Nodup) :
    (shelf bindings frozen (texts.map Value.str).toArray).Plain [0] (some 0) where
  named := Option.isSome_iff_exists.mpr ⟨_, Bindings.get?_set_self _ _ _⟩
  exists_frame := by simp [shelf, frame?]
  locals := by
    have hset : (Value.ref 1).Plain (shelf bindings frozen (texts.map Value.str).toArray).heap
        false 2 := by
      refine .container (show _ = some (.set, texts.map Value.str) from rfl) ?_ fun _ => ?_
      · simp only [List.mem_map, forall_exists_index, and_imp, forall_apply_eq_imp_iff₂]
        exact fun t _ => .constant rfl fun _ i hi => nomatch hi
      · exact List.pairwise_map.mpr (ht.imp fun hne hsame => hne (Value.str.inj hsame.2))
    have hlist : (Value.ref 2).Plain (shelf bindings frozen (texts.map Value.str).toArray).heap
        false (maxFreezeDepth - 1) :=
      .container (show _ = some (.list, [.ref 1]) from rfl) (by simpa using hset) (by simp)
    have hlocals : (shelf bindings frozen (texts.map Value.str).toArray).ownLocals 0 =
        [("items", .ref 2)] := rfl
    intro f hf
    obtain rfl := List.mem_singleton.mp hf
    rw [hlocals]
    exact ⟨by simp, by simpa using fun _ => hlist⟩
  module := ⟨((Bindings.ofList bindings).set "__name__" (.str "shelf")).nodup,
    fun e he _ => .constant (hb e he) (by simp)⟩

/-- Neither the order of the variables of the module nor that of the members of a set matters, nor
whether the set may be changed. -/
theorem fingerprint_shelf :
    ((shelf [("x", .int 1), ("y", .bool true)] true #[.str "it's", .str "a"]).fingerprint [0]
        (some 0) .none).key =
      ((shelf [("y", .bool true), ("x", .int 1)] false #[.str "a", .str "it's"]).fingerprint
        [0] (some 0) .none).key := by
  refine (fingerprint_key_eq_iff (plain_shelf ["it's", "a"] (by decide) (by decide))
    (plain_shelf ["a", "it's"] (by decide) (by decide))).2.mpr ⟨rfl, ?_, ?_⟩
  · refine .cons ⟨_, _, rfl, rfl, rfl, rfl, rfl, ?_⟩ .nil
    show Holds _ _ [("items", .ref 2)] [("items", .ref 2)]
    refine .of_perm (by simp) .rfl fun e he => ?_
    obtain rfl := List.mem_singleton.mp he
    refine ⟨rfl, .cons ⟨rfl, ?_⟩ .nil⟩
    simp [Value.Same, Heap.contents?, Value.isPlain]
  · show Holds _ _ [("x", .int 1), ("y", .bool true), ("__name__", .str "shelf")]
      [("y", .bool true), ("x", .int 1), ("__name__", .str "shelf")]
    refine .of_perm (by simp) (.swap ..) fun e he => ?_
    simp only [List.mem_cons, List.not_mem_nil, or_false] at he
    obtain rfl | rfl | rfl := he <;> exact ⟨rfl, rfl⟩

/-- A function with the local variable `__x__`. -/
def hiddenLocal (i : Int) : Scene where
  heap := .empty
  modules := .empty
  frames := #[{
    globals := 0, name := "f", qualname := some "f", file := "hidden.py", line := 1, position := 2,
    optimized := true, caller := none, locals := .slots #["__x__"] #[.value (.int i)] }]

/-- Two values of a local variable with a hidden name are not told apart. -/
theorem fingerprint_hiddenLocal :
    (hiddenLocal 1).local? 0 "__x__" = some (.int 1) ∧
      (hiddenLocal 2).local? 0 "__x__" = some (.int 2) ∧
      ((hiddenLocal 1).fingerprint [0] none .none).key =
        ((hiddenLocal 2).fingerprint [0] none .none).key :=
  ⟨rfl, rfl, by decide +kernel⟩

end Scene

end StateAtlas
