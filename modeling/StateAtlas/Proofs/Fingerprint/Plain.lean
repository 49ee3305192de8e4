import StateAtlas.Proofs.Fingerprint.Written

set_option autoImplicit false

/-!
# Plain data and its picture

Plain data is built of constants, lists, tuples and sets. If it nests no deeper than a picture
shows, its picture is the same exactly if the data is: lists and tuples item by item, and sets by
their members, whatever the order in which they are met.

## Main definitions

* `StateAtlas.Value.Same` — the same plain data, in two heaps.
* `StateAtlas.Value.Plain` — a value that holds plain data down to some number of levels.

## Main results

* `StateAtlas.Value.Plain.same_of_key` — values with equal pictures hold the same data.
* `StateAtlas.Value.Plain.freezeWithin_eq` — values that hold the same data have equal pictures.

## Design

A picture shows every container with the name of its type, and every constant too, so that a truth
value is not mistaken for a number. Members of sets are arranged by their written forms; those must
exist, which is why integers inside of sets are limited in length.
-/

namespace StateAtlas

/-! ## Plain data -/

/-- The containers of plain data; a set may be changed or not. -/
inductive Container where
  | tuple
  | list
  | set
  deriving DecidableEq

/-- The name of a container in a picture. -/
def Container.name : Container → String
  | .tuple => "tuple"
  | .list => "list"
  | .set => "set"

/-- What a container holds. -/
def Heap.contents? (h : Heap) : Value → Option (Container × List Value)
  | .tuple vs => some (.tuple, vs)
  | .ref a =>
    match h.get? a with
    | some (.list vs) => some (.list, vs.toList)
    | some (.set _ vs) => some (.set, vs.toList)
    | _ => none
  | _ => none

namespace Value

/-- The same plain data in two heaps, down to `room` levels of structure: equal constants of one
type, lists or tuples with the same items in the same order, or sets with the same members. -/
def Same (h h' : Heap) : Nat → Value → Value → Prop
  | 0, v, w => v.isPlain = true ∧ v = w
  | room + 1, v, w =>
    match h.contents? v, h'.contents? w with
    | some (c, vs), some (c', ws) =>
      c = c' ∧
        if c = .set then
          (∀ v ∈ vs, ∃ w ∈ ws, Same h h' room v w) ∧ ∀ w ∈ ws, ∃ v ∈ vs, Same h h' room v w
        else List.Forall₂ (Same h h' room) vs ws
    | Option.none, Option.none => v.isPlain = true ∧ v = w
    | _, _ => False

/-- Plain data that nests no more than `room` levels of structure. Inside of a set it must be
possible to write it: integers are not too long there. The members of a set are different. -/
inductive Plain (h : Heap) : (inSet : Bool) → (room : Nat) → Value → Prop
  | constant {inSet : Bool} {room : Nat} {v : Value} (hv : v.isPlain = true)
      (hint : inSet = true → ∀ i, v = .int i → (integerText? i).isSome = true) :
      Plain h inSet room v
  | container {inSet : Bool} {room : Nat} {v : Value} {c : Container} {vs : List Value}
      (hc : h.contents? v = some (c, vs)) (hvs : ∀ v ∈ vs, Plain h (inSet || c = .set) room v)
      (hdistinct : c = .set → vs.Pairwise fun v w => ¬ Same h h room v w) :
      Plain h inSet (room + 1) v

end Value

/-! ## Lists item by item -/

section Lists

variable {α β γ : Type} {f : α → γ} {g : β → γ} {R : α → β → Prop} {as : List α} {bs : List β}

/-- Items with equal images are related one by one. -/
lemma forall₂_of_map_eq (h : as.map f = bs.map g)
    (himp : ∀ a ∈ as, ∀ b ∈ bs, f a = g b → R a b) : List.Forall₂ R as bs := by
  rw [← List.forall₂_eq_eq_eq, List.forall₂_map_left_iff, List.forall₂_map_right_iff,
    List.forall₂_iff_zip] at h
  rw [List.forall₂_iff_zip]
  exact ⟨h.1, fun hm => himp _ (List.of_mem_zip hm).1 _ (List.of_mem_zip hm).2 (h.2 hm)⟩

/-- Items that are related one by one have equal images. -/
lemma map_eq_of_forall₂ (h : List.Forall₂ R as bs)
    (himp : ∀ a ∈ as, ∀ b ∈ bs, R a b → f a = g b) : as.map f = bs.map g := by
  rw [List.forall₂_iff_zip] at h
  rw [← List.forall₂_eq_eq_eq, List.forall₂_map_left_iff, List.forall₂_map_right_iff,
    List.forall₂_iff_zip]
  exact ⟨h.1, fun hm => himp _ (List.of_mem_zip hm).1 _ (List.of_mem_zip hm).2 (h.2 hm)⟩

end Lists

/-! ## The pictures of plain data -/

/-- The picture of what is in a container, in the order in which it is shown. -/
def Container.arrange (c : Container) (fs : List Frozen) : Frozen :=
  if c = .set then arrangeFrozen fs else .tuple fs

/-- Legible pictures are arranged and not changed. -/
lemma exists_of_arrangeFrozen {fs : List Frozen} (hf : ∀ f ∈ fs, f.Legible) :
    ∃ gs : List Frozen, gs.Perm fs ∧ arrangeFrozen fs = .tuple gs := by
  refine ⟨_, ?_, arrangeFrozen_of_legible hf⟩
  simpa [Function.comp_def] using (byName_perm (fs.map fun f => (f.text, f))).map Prod.snd

/-- The picture of what is in a container can be made if that of each item can, and the items of a
set can be written. -/
lemma Container.fault?_arrange {c : Container} {fs : List Frozen}
    (hf : ∀ f ∈ fs, f.fault? = Option.none) (hset : c = .set → ∀ f ∈ fs, f.Legible) :
    (c.arrange fs).fault? = Option.none := by
  rw [arrange]
  split
  · rename_i hc
    obtain ⟨gs, hperm, heq⟩ := exists_of_arrangeFrozen (hset hc)
    rw [heq, Frozen.fault?_tuple_eq_none]
    exact fun g hg => hf g (hperm.mem_iff.mp hg)
  · exact Frozen.fault?_tuple_eq_none.mpr hf

/-- Of two sets of legible pictures that show the same, each picture of the one is given in the
other. -/
lemma exists_of_arrangeFrozen_key {fs gs : List Frozen} (hf : ∀ f ∈ fs, f.Legible)
    (hg : ∀ g ∈ gs, g.Legible) (h : (arrangeFrozen fs).key = (arrangeFrozen gs).key) :
    ∀ f ∈ fs, ∃ g ∈ gs, f.key = g.key := by
  intro f hmem
  obtain ⟨fs', hfs', hfeq⟩ := exists_of_arrangeFrozen hf
  obtain ⟨gs', hgs', hgeq⟩ := exists_of_arrangeFrozen hg
  rw [hfeq, hgeq, Frozen.key_tuple_eq_iff] at h
  have hkey : f.key ∈ gs'.map Frozen.key := h ▸ List.mem_map_of_mem (hfs'.mem_iff.mpr hmem)
  obtain ⟨g, hg, heq⟩ := List.mem_map.mp hkey
  exact ⟨g, hgs'.mem_iff.mp hg, heq.symm⟩

section Pictures

open Value

variable {h : Heap} {owner : Value} {room : Nat} {v : Value}

/-- A constant holds nothing else. -/
lemma contents?_constant (hv : v.isPlain = true) : h.contents? v = Option.none := by
  cases v with
  | none | bool | int | str | bytes => rfl
  | _ => simp [isPlain] at hv

/-- A constant is pictured in full. -/
lemma freezeWithin_constant (h : Heap) (owner : Value) (room : Nat) (hv : v.isPlain = true) :
    ∃ f : Frozen, v.constant? = some f ∧
      freezeWithin h owner room v = .tuple [.str (h.typeNameOf v), f] := by
  cases v with
  | none | bool | int | str | bytes => exact ⟨_, rfl, by rw [freezeWithin.eq_def]; rfl⟩
  | _ => simp [isPlain] at hv

/-- The picture of a constant does not depend on anything else. -/
lemma freezeWithin_constant_congr (hv : v.isPlain = true) {h' : Heap} {owner' : Value}
    {room' : Nat} : freezeWithin h owner room v = freezeWithin h' owner' room' v := by
  rw [freezeWithin.eq_def, freezeWithin.eq_def h']
  cases v with
  | none | bool | int | str | bytes => rfl
  | _ => simp [isPlain] at hv

/-- A container is pictured with the name of its type and with what it holds. -/
lemma freezeWithin_container {c : Container} {vs : List Value}
    (hc : h.contents? v = some (c, vs)) : freezeWithin h owner (room + 1) v =
      .tuple [.str c.name, c.arrange (vs.map (freezeWithin h owner room))] := by
  unfold Heap.contents? at hc
  split at hc
  · obtain ⟨rfl, rfl⟩ := Prod.mk.inj (Option.some.inj hc)
    rw [freezeWithin.eq_def]
    rfl
  · split at hc
    · rename_i ha
      obtain ⟨rfl, rfl⟩ := Prod.mk.inj (Option.some.inj hc)
      rw [freezeWithin.eq_def]
      simp only [constant?, content, ha, Heap.typeNameOf, Heap.objectType]
      rfl
    · rename_i ha
      obtain ⟨rfl, rfl⟩ := Prod.mk.inj (Option.some.inj hc)
      rw [freezeWithin.eq_def]
      simp only [constant?, content, ha]
      rfl
    · simp at hc
  · simp at hc

/-- No constant has the name of a container. -/
lemma name_ne_typeNameOf (hv : v.isPlain = true) (c : Container) : c.name ≠ h.typeNameOf v := by
  cases v with
  | none | bool | int | str | bytes => cases c <;> simp [Container.name, Heap.typeNameOf]
  | _ => simp [isPlain] at hv

end Pictures

namespace Value

variable {h h' : Heap} {owner owner' : Value} {inSet inSet' : Bool} {room : Nat} {v w : Value}

/-- What is pictured inside of a set can be written. -/
lemma Plain.legible (hv : Plain h true room v) : (freezeWithin h owner room v).Legible := by
  generalize hin : true = inSet at hv
  have pair : ∀ {t : String} {f : Frozen}, f.Legible → (Frozen.tuple [.str t, f]).Legible :=
    fun hf => .tuple (by simp [hf, Frozen.Legible.str])
  induction hv with
  | @constant _ _ v hv hint =>
    obtain ⟨f, hf, hpicture⟩ := freezeWithin_constant h owner _ hv
    rw [hpicture]
    refine pair ?_
    cases v with
    | none => obtain rfl : Frozen.none = f := Option.some.inj hf; exact .none
    | bool b => obtain rfl : Frozen.bool b = f := Option.some.inj hf; exact .bool b
    | int i =>
      obtain rfl : Frozen.int i = f := Option.some.inj hf
      exact .int (hint hin.symm i rfl)
    | str t => obtain rfl : Frozen.str t = f := Option.some.inj hf; exact .str t
    | bytes bs => obtain rfl : Frozen.bytes bs = f := Option.some.inj hf; exact .bytes bs
    | _ => simp [isPlain] at hv
  | @container _ room _ c vs hc _ _ ih =>
    have hitems : ∀ f ∈ vs.map (freezeWithin h owner room), f.Legible := by
      simp only [List.mem_map, forall_exists_index, and_imp, forall_apply_eq_imp_iff₂]
      exact fun v hv => ih v hv (by simp [← hin])
    rw [freezeWithin_container hc]
    refine pair ?_
    rw [Container.arrange]
    split
    · obtain ⟨gs, hperm, heq⟩ := exists_of_arrangeFrozen hitems
      exact heq ▸ .tuple fun g hg => hitems g (hperm.mem_iff.mp hg)
    · exact .tuple hitems

/-- What is in a set can be written. -/
lemma Plain.legible_of_set (owner : Value) {c : Container} {vs : List Value}
    (hvs : ∀ v ∈ vs, Plain h (inSet || c = .set) room v) (hc : c = .set) :
    ∀ f ∈ vs.map (freezeWithin h owner room), f.Legible := by
  have hin : (inSet || decide (c = .set)) = true := by simp [hc]
  simp only [List.mem_map, forall_exists_index, and_imp, forall_apply_eq_imp_iff₂]
  exact fun v hv => (hin ▸ hvs v hv).legible

/-- The picture of plain data can be made. -/
theorem Plain.fault? (hv : Plain h inSet room v) :
    (freezeWithin h owner room v).fault? = Option.none := by
  induction hv with
  | @constant _ room v hv _ =>
    obtain ⟨f, hf, hpicture⟩ := freezeWithin_constant h owner room hv
    rw [hpicture, Frozen.fault?_pair]
    cases v with
    | none | bool | int | str | bytes => obtain rfl := Option.some.inj hf; rfl
    | _ => simp [isPlain] at hv
  | @container inSet room _ c vs hc hvs _ ih =>
    have hitems : ∀ f ∈ vs.map (freezeWithin h owner room), f.fault? = Option.none := by
      simpa using ih
    rw [freezeWithin_container hc, Frozen.fault?_pair]
    exact Container.fault?_arrange hitems (legible_of_set owner hvs)

/-! ## Equal pictures -/

/-- Values with equal pictures hold the same plain data.

**Proof sketch.** By induction on the nesting. The name in front of a picture tells whether the
value is a constant, and which container it is otherwise; constants are pictured in full, and the
items of a container one by one. -/
theorem Plain.same_of_key (hv : Plain h inSet room v) (hw : Plain h' inSet' room w)
    (hk : (freezeWithin h owner room v).key = (freezeWithin h' owner' room w).key) :
    Same h h' room v w := by
  induction hv generalizing inSet' w with
  | @constant _ room v hv _ =>
    obtain ⟨f, -, hpicture⟩ := freezeWithin_constant h owner room hv
    cases hw with
    | constant hw =>
      have heq := eq_of_key hv hw hk
      cases room with
      | zero => exact ⟨hv, heq⟩
      | succ room =>
        rw [Same, contents?_constant hv, contents?_constant hw]
        exact ⟨hv, heq⟩
    | container hc =>
      rw [hpicture, freezeWithin_container hc] at hk
      exact absurd (Frozen.eq_of_key_pair hk).1.symm (name_ne_typeNameOf hv _)
  | @container _ room v c vs hc hvs _ ih =>
    rw [freezeWithin_container hc] at hk
    cases hw with
    | constant hw =>
      obtain ⟨f, -, hpicture⟩ :=
        freezeWithin_constant h' owner' (room + 1) hw
      rw [hpicture] at hk
      exact absurd (Frozen.eq_of_key_pair hk).1 (name_ne_typeNameOf hw _)
    | @container _ _ _ c' ws hc' hws _ =>
      rw [freezeWithin_container hc'] at hk
      obtain ⟨hname, hitems⟩ := Frozen.eq_of_key_pair hk
      obtain rfl : c = c' := by
        revert hname; cases c <;> cases c' <;> simp [Container.name]
      rw [Same, hc, hc']
      refine ⟨rfl, ?_⟩
      split
      · rename_i hset
        rw [Container.arrange, if_pos hset, Container.arrange, if_pos hset] at hitems
        have hlegible := legible_of_set owner hvs hset
        have hlegible' := legible_of_set owner' hws hset
        refine ⟨fun v hv => ?_, fun w hw => ?_⟩
        · obtain ⟨f, hf, heq⟩ := exists_of_arrangeFrozen_key hlegible hlegible' hitems _
            (List.mem_map_of_mem hv)
          obtain ⟨w, hw, rfl⟩ := List.mem_map.mp hf
          exact ⟨w, hw, ih v hv (hws w hw) heq⟩
        · obtain ⟨f, hf, heq⟩ := exists_of_arrangeFrozen_key hlegible' hlegible hitems.symm _
            (List.mem_map_of_mem hw)
          obtain ⟨v, hv, rfl⟩ := List.mem_map.mp hf
          exact ⟨v, hv, ih v hv (hws w hw) heq.symm⟩
      · rename_i hset
        rw [Container.arrange, if_neg hset, Container.arrange, if_neg hset,
          Frozen.key_tuple_eq_iff, List.map_map, List.map_map] at hitems
        exact forall₂_of_map_eq hitems fun v hv w hw => ih v hv (hws w hw)

/-- The members of a set have different pictures. -/
lemma nodup_pictures {vs : List Value} (hvs : ∀ v ∈ vs, Plain h inSet room v)
    (hdistinct : vs.Pairwise fun v w => ¬ Same h h room v w) :
    (vs.map (freezeWithin h owner room)).Nodup := by
  refine List.pairwise_map.mpr (hdistinct.imp_of_mem fun hv hw hne heq => hne ?_)
  exact (hvs _ hv).same_of_key (hvs _ hw) (congrArg Frozen.key heq)

/-- Sets with the same members have the same pictures, up to their order. -/
lemma perm_pictures {vs ws : List Value} (hvs : ∀ v ∈ vs, Plain h inSet room v)
    (hws : ∀ w ∈ ws, Plain h' inSet' room w)
    (hdistinct : vs.Pairwise fun v w => ¬ Same h h room v w)
    (hdistinct' : ws.Pairwise fun v w => ¬ Same h' h' room v w)
    (hsub : ∀ v ∈ vs, ∃ w ∈ ws, freezeWithin h owner room v = freezeWithin h' owner' room w)
    (hsup : ∀ w ∈ ws, ∃ v ∈ vs, freezeWithin h owner room v = freezeWithin h' owner' room w) :
    (vs.map (freezeWithin h owner room)).Perm (ws.map (freezeWithin h' owner' room)) := by
  rw [List.perm_ext_iff_of_nodup (nodup_pictures hvs hdistinct) (nodup_pictures hws hdistinct')]
  intro f
  simp only [List.mem_map]
  constructor
  · rintro ⟨v, hv, rfl⟩
    obtain ⟨w, hw, heq⟩ := hsub v hv
    exact ⟨w, hw, heq.symm⟩
  · rintro ⟨w, hw, rfl⟩
    exact hsup w hw

/-- Values that hold the same plain data have equal pictures.

**Proof sketch.** By induction on the nesting. The members of a set have different pictures, because
they are different, so that the pictures of equal sets are the same up to their order; and the
arrangement does not depend on it. -/
theorem Plain.freezeWithin_eq (hv : Plain h inSet room v) (hw : Plain h' inSet' room w)
    (hsame : Same h h' room v w) : freezeWithin h owner room v = freezeWithin h' owner' room w := by
  induction hv generalizing inSet' w with
  | @constant _ room v hv _ =>
    obtain rfl : v = w := by
      cases room with
      | zero => exact hsame.2
      | succ room =>
        rw [Same, contents?_constant hv] at hsame
        split at hsame
        · simp_all
        · exact hsame.2
        · exact hsame.elim
    exact freezeWithin_constant_congr hv
  | @container inSet room v c vs hc hvs hdistinct ih =>
    rw [Same, hc] at hsame
    cases hw with
    | constant hw => rw [contents?_constant hw] at hsame; exact hsame.elim
    | @container _ _ _ c' ws hc' hws hdistinct' =>
      rw [hc'] at hsame
      obtain ⟨rfl, hsame⟩ := hsame
      rw [freezeWithin_container hc, freezeWithin_container hc']
      suffices harranged : c.arrange (vs.map (freezeWithin h owner room)) =
          c.arrange (ws.map (freezeWithin h' owner' room)) by rw [harranged]
      unfold Container.arrange
      split
      · rename_i hset
        rw [if_pos hset] at hsame
        refine arrangeFrozen_eq_of_perm (legible_of_set owner hvs hset) (perm_pictures hvs hws
          (hdistinct hset) (hdistinct' hset) (fun v hv => ?_) fun w hw => ?_)
        · obtain ⟨w, hw, hvw⟩ := hsame.1 v hv
          exact ⟨w, hw, ih v hv (hws w hw) hvw⟩
        · obtain ⟨v, hv, hvw⟩ := hsame.2 w hw
          exact ⟨v, hv, ih v hv (hws w hw) hvw⟩
      · rename_i hset
        rw [if_neg hset] at hsame
        exact congrArg Frozen.tuple
          (map_eq_of_forall₂ hsame fun v hv w hw => ih v hv (hws w hw))

end Value

end StateAtlas
