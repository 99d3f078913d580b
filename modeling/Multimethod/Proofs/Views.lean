/-
  Multimethod.Proofs.Views — the walk into an object agrees with the walk along the nodes.

  Pointers are made by a walk along the nodes (`ClassNode.inherits`), and looked through by
  a walk into the object, over the instances embedded in it (`Step.viewAs`). Both walks
  follow the declared chain, the one from link to link, the other from instance to embedded
  instance (`Instance.map_cls_parts`), so an object is viewed as a class exactly when its
  own class inherits that, and what is seen is the instance of the class inside it
  (`viewAs_fst`). Whatever way a pointer was got (`Handle.Obtained`), the object it has is
  therefore seen through it (`World.Reached.views_agree`).
-/
import Multimethod.Proofs.Converting

namespace Multimethod

open Registries (Grows Course)

/-! ## The parts of an object -/

namespace Instance

/-- The instance and the instances embedded in it, its own class's first. -/
def parts : Instance → List Instance
  | root l own => [root l own]
  | derived l own p => derived l own p :: p.parts

/-- There is a part for each class on the chain. -/
theorem map_cls_parts (i : Instance) : i.parts.map cls = i.cls.chain := by
  induction i with
  | root l own => rfl
  | derived l own p ih => rw [parts, List.map_cons, ih]; rfl

/-- No two parts are of one class. -/
theorem find?_parts_iff (i p : Instance) (d : ClassDecl) :
    i.parts.find? (fun q => q.cls = d) = some p ↔ p ∈ i.parts ∧ p.cls = d := by
  refine ⟨fun h => ⟨List.mem_of_find?_eq_some h, by simpa using List.find?_some h⟩, ?_⟩
  rintro ⟨hp, rfl⟩
  induction i with
  | root l own => rw [List.mem_singleton.mp hp]; exact List.find?_cons_of_pos (by simp)
  | derived l own q ih =>
    rcases List.mem_cons.mp hp with rfl | hp
    · exact List.find?_cons_of_pos (by simp)
    · -- the part is of a class above, which is not the derived class
      have hmem : p.cls ∈ q.cls.chain := q.map_cls_parts ▸ List.mem_map_of_mem hp
      have hne : (derived l own q).cls ≠ p.cls := fun h =>
        ClassDecl.derived_not_mem_chain l q.cls (show (derived l own q).cls ∈ _ from h ▸ hmem)
      rw [parts, List.find?_cons_of_neg (by simpa using hne)]
      exact ih hp

theorem isSome_find?_parts_iff (i : Instance) (d : ClassDecl) :
    (i.parts.find? fun q => q.cls = d).isSome = true ↔ d ∈ i.cls.chain := by
  rw [← map_cls_parts, List.mem_map, List.find?_isSome]
  simp

theorem length_numbers (i : Instance) : i.numbers.length = i.cls.chain.length := by
  induction i with
  | root l own => rfl
  | derived l own p ih => simp only [numbers, cls, ClassDecl.chain_derived, List.length_cons, ih]

/-- A part holds the last numbers of the whole, one for each class from its own up. -/
theorem numbers_of_mem_parts {i p : Instance} (hp : p ∈ i.parts) :
    p.numbers = i.numbers.drop (i.cls.chain.length - p.cls.chain.length) := by
  have hsuffix : p.numbers <:+ i.numbers := by
    induction i with
    | root l own =>
      obtain rfl := List.mem_singleton.mp hp
      exact List.suffix_refl _
    | derived l own q ih =>
      rcases List.mem_cons.mp hp with rfl | hp
      · exact List.suffix_refl _
      · exact (ih hp).trans (List.suffix_cons own q.numbers)
  rw [← length_numbers, ← length_numbers]
  exact List.suffix_iff_eq_drop.mp hsuffix

end Instance

/-! ## Looking into an object -/

namespace Step

variable {w : World}

/-- Where the class has its node, looking for the node finds the part of that class. -/
theorem viewAs_fst (hw : w.registries.Sound) {d : ClassDecl} {n : ClassNode}
    (hn : w.registries.classes.find? d = some n) (i : Instance) :
    (viewAs n i w).1 = i.parts.find? fun p => p.cls = d := by
  have same_iff : ∀ {w : World}, w.registries.Sound → w.registries.classes.find? d = some n →
      ∀ c, (node c w).1.same n = true ↔ c = d := fun {w} hw hn c => by
    have hquiet := isQuiet_node c w hw
    exact (Course.sound hw hquiet).classes.same_iff_class (find?_node c w) ((Course.grows hw hquiet).node hn)
  induction i generalizing w with
  | root l own =>
    have hsame := same_iff hw hn (Instance.root l own).cls
    simp only [viewAs, bind_apply, pure_apply, Instance.parts]
    by_cases hd : (Instance.root l own).cls = d
    · rw [if_pos (hsame.mpr hd)]
      exact (List.find?_cons_of_pos (by simpa using hd)).symm
    · rw [if_neg (mt hsame.mp hd)]
      simp [hd]
  | derived l own p ih =>
    have hsame := same_iff hw hn (Instance.derived l own p).cls
    have hquiet := isQuiet_node (Instance.derived l own p).cls w hw
    have hrest := ih (Course.sound hw hquiet) ((Course.grows hw hquiet).node hn)
    simp only [viewAs, bind_apply, Instance.parts]
    by_cases hd : (Instance.derived l own p).cls = d
    · rw [if_pos (hsame.mpr hd)]
      exact (List.find?_cons_of_pos (by simpa using hd)).symm
    · rw [if_neg (mt hsame.mp hd), hrest]
      exact (List.find?_cons_of_neg (by simpa using hd)).symm

/-- Through a pointer the part of its class is seen. -/
theorem view_fst (hw : w.registries.Sound) (h : Handle) :
    (view h w).1 = h.target.bind fun o => o.body.parts.find? fun p => p.cls = h.cls := by
  obtain ⟨d, target⟩ := h
  cases target with
  | none => rfl
  | some o =>
    have hsound := Course.sound hw (isQuiet_node d w hw)
    simp only [view, bind_apply, pure_apply, viewAs_fst hsound (find?_node d w), Option.bind_some]
    cases hp : o.body.parts.find? fun p => p.cls = d with
    | none => rfl
    | some p =>
      have hcls : p.cls = d := by simpa using List.find?_some hp
      simp [hcls]

end Step

/-! ## Pointers -/

/-- The program has the pointer in this world: a new object's, the one to nothing, a default value,
    one to an object of a class that inherits its own, a cast of another pointer, or what is
    read from some box. A copy of a pointer is the pointer itself, and a pointer is kept. -/
inductive Handle.Obtained : World → Handle → Prop
  | new {w : World} (hw : w.Reached) (i : Instance) :
      Obtained (Step.allocate i w).2 ⟨i.cls, some (Step.allocate i w).1⟩
  | null {w : World} (hw : w.Reached) (c : ClassDecl) : Obtained w (Handle.null c)
  | default {w : World} (hw : w.Reached) {c : ClassDecl} {h : Handle} (hd : (Ty.pointer c).default = .pointer h) :
      Obtained w h
  | fromObject {w : World} (hw : w.Reached) (o : Object) (c : ClassDecl) {h : Handle} {v : World}
      (hp : Step.pointTo o c w = (some h, v)) : Obtained v h
  | cast {w : World} {h : Handle} (hh : Obtained w h) (c : ClassDecl) :
      Obtained (Step.cast h c w).2 (Step.cast h c w).1
  | tryValue {w : World} (hw : w.Reached) (b : Box) (c : ClassDecl) (depth : Nat) {h : Handle} {v : World}
      (hr : (Run.read b (.pointer c)).atDepth depth w = some (some (.pointer h), v)) : Obtained v h
  | value {w : World} (hw : w.Reached) (b : Box) (c : ClassDecl) (depth : Nat) {h : Handle} {v : World}
      (hr : (Run.readOr b (.pointer c)).atDepth depth w = some (.pointer h, v)) : Obtained v h
  | later {w : World} {h : Handle} (hh : Obtained w h) {v : World} (hv : w.Leads v) : Obtained v h

/-- A pointer read from a box, or taken by default, points to nothing or to an object of a
    class that inherits its own. -/
theorem Run.conforms_read {w v : World} (hw : w.registries.Sound) {b : Box} {k : ClassDecl} {c : Caller} {o : Option Value}
    (hr : read b (.pointer k) c w = some (o, v)) : ∀ y ∈ o, y.Conforms := by
  intro y hy
  cases hb : b.object? with
  | none =>
    cases (read_pointer_of_none hb k c w).symm.trans hr
    cases hy
  | some p =>
    have hread : ((Step.pointTo p k w).1.map Value.pointer, (Step.pointTo p k w).2) = (o, v) :=
      Option.some.inj ((read_pointer_of_object hb k c w).symm.trans hr)
    have ho : (Step.pointTo p k w).1.map Value.pointer = some y := (congrArg Prod.fst hread).trans hy
    obtain ⟨h, hh, rfl⟩ := Option.map_eq_some_iff.mp ho
    exact (Step.fits_pointTo hw hh).conforms

namespace Handle.Obtained

variable {w : World} {h : Handle}

theorem reached (hh : h.Obtained w) : w.Reached := by
  induction hh with
  | new hw i => exact hw.leads (.step .refl (.act (.allocate i)) 0 rfl)
  | null hw c => exact hw
  | default hw hd => exact hw
  | @fromObject w hw o c h v hp =>
    have hv : v = (Step.pointTo o c w).2 := (congrArg Prod.snd hp).symm
    rw [hv]
    exact hw.leads (.step .refl (.act (.pointTo o c)) 0 rfl)
  | cast hh c ih => exact ih.leads (.step .refl (.act (.cast _ c)) 0 rfl)
  | tryValue hw b c depth hr =>
    exact hw.leads (.step .refl (.act (.read b (.pointer c))) depth (Run.bind_eq_some.mpr ⟨_, _, hr, rfl⟩))
  | value hw b c depth hr =>
    obtain ⟨o, u, hread, hp⟩ := Run.bind_eq_some.mp hr
    obtain rfl : u = _ := congrArg Prod.snd (Option.some.inj hp)
    exact hw.leads (.step .refl (.act (.read b (.pointer c))) depth (Run.bind_eq_some.mpr ⟨_, _, hread, rfl⟩))
  | later hh hv ih => exact ih.leads hv

/-- Whatever way a pointer was got, its object's class inherits the pointer's. -/
theorem conforms (hh : h.Obtained w) : (Value.pointer h).Conforms := by
  induction hh with
  | new hw i =>
    intro o ho
    cases ho; exact i.cls.self_mem_chain
  | null hw c =>
    intro o ho
    cases ho
  | default hw hd =>
    cases hd
    intro o ho
    cases ho
  | fromObject hw o c hp => exact (Step.fits_pointTo hw.sound (congrArg Prod.fst hp)).conforms
  | cast hh c ih => exact (Step.fits_cast hh.reached.sound _ c).conforms
  | tryValue hw b c depth hr => exact Run.conforms_read hw.sound hr _ rfl
  | @value w hw b c depth h v hr =>
    obtain ⟨o, u, hread, hp⟩ := Run.bind_eq_some.mp hr
    have ho : o.getD (Ty.pointer c).default = .pointer h := congrArg Prod.fst (Option.some.inj hp)
    cases o with
    | none =>
      cases ho
      intro p hp
      cases hp
    | some y => exact Run.conforms_read hw.sound hread _ (congrArg some ho)
  | later hh hv ih => exact ih

end Handle.Obtained

/-! ## The two walks -/

/-- In every world that a program can get to, an object is viewed as the class of a node exactly
    when the node of its own class inherits that node. What is seen is the part of the object
    that is of the class, which holds the numbers of the class and of those it derives from.
    And whatever way a pointer was got, something is seen through it exactly when it does not
    point to nothing: the part of the pointer's class. -/
theorem World.Reached.views_agree {w : World} (hw : w.Reached) :
    (∀ (o : Object) (d : ClassDecl) (n : ClassNode), w.registries.classes.find? d = some n →
      ((Step.viewAs n o.body w).1.isSome = true ↔ (Step.node o.cls w).1.inherits n = true) ∧
      ∀ p, (Step.viewAs n o.body w).1 = some p ↔ p ∈ o.body.parts ∧ p.cls = d ∧
        p.numbers = o.body.numbers.drop (o.cls.chain.length - d.chain.length)) ∧
    ∀ h : Handle, h.Obtained w → ((Step.view h w).1.isSome = true ↔ h.isNull = false) ∧
      ∀ o, h.target = some o → ∃ p ∈ o.body.parts, p.cls = h.cls ∧ (Step.view h w).1 = some p := by
  refine ⟨fun o d n hn => ⟨?_, fun p => ?_⟩, fun h hh => ?_⟩
  · have hquiet := Step.isQuiet_node o.cls w hw.sound
    have hsound := Course.sound hw.sound hquiet
    have hkept := (Course.grows hw.sound hquiet).node hn
    rw [Step.viewAs_fst hw.sound hn, Instance.isSome_find?_parts_iff,
      hsound.classes.inherits_iff (Step.find?_node o.cls w) hkept]; rfl
  · rw [Step.viewAs_fst hw.sound hn, Instance.find?_parts_iff]
    constructor
    · rintro ⟨hp, rfl⟩
      exact ⟨hp, rfl, Instance.numbers_of_mem_parts hp⟩
    · exact fun ⟨hp, hd, _⟩ => ⟨hp, hd⟩
  · have hseen : ∀ o, h.target = some o → ∃ p ∈ o.body.parts, p.cls = h.cls ∧ (Step.view h w).1 = some p := by
      intro o ho
      have hchain : h.cls ∈ o.body.cls.chain := hh.conforms o ho
      obtain ⟨p, hp⟩ := Option.isSome_iff_exists.mp ((Instance.isSome_find?_parts_iff o.body h.cls).mpr hchain)
      obtain ⟨hmem, hcls⟩ := (Instance.find?_parts_iff o.body p h.cls).mp hp
      refine ⟨p, hmem, hcls, ?_⟩
      rw [Step.view_fst hw.sound, ho]; exact hp
    refine ⟨?_, hseen⟩
    cases ht : h.target with
    | none => simp [Step.view_fst hw.sound, Handle.isNull, ht]
    | some o =>
      obtain ⟨p, -, -, hp⟩ := hseen o ht
      simp [hp, Handle.isNull, ht]

/-- A new dog is cast to its parent class: with the node of that class the animal in the dog is
    found, and it is what is seen through the cast pointer. -/
theorem World.Reached.views_agree_dog :
    let cat : ClassDecl := .root ⟨"Cat", 0, 0⟩
    let inner : Instance := .root ⟨"Animal", 0, 4⟩ 3
    let dog : Instance := .derived ⟨"Dog", 0, 1⟩ 7 inner
    let o := (Step.allocate dog World.fresh).1
    let h := (Step.cast ⟨dog.cls, some o⟩ inner.cls (Step.allocate dog World.fresh).2).1
    let w := (Step.node cat (Step.cast ⟨dog.cls, some o⟩ inner.cls (Step.allocate dog World.fresh).2).2).2
    w.Reached ∧ h.Obtained w ∧ h.isNull = false ∧ (Step.view h w).1.isSome = true ∧
      (∃ n, w.registries.classes.find? inner.cls = some n ∧ (Step.viewAs n o.body w).1 = some inner) ∧
      ∃ n, w.registries.classes.find? cat = some n ∧ (Step.viewAs n o.body w).1.isSome = false := by
  intro cat inner dog o h w
  have hh : h.Obtained w :=
    .later (.cast (.new .refl dog) inner.cls) (.step .refl (.act (.node cat)) 0 rfl)
  have hw : w.Reached := hh.reached
  obtain ⟨hobjects, hpointers⟩ := World.Reached.views_agree hw
  obtain ⟨n, hn⟩ : ∃ n, w.registries.classes.find? inner.cls = some n := (Table.contains_iff _ _).mp (by decide)
  obtain ⟨m, hm⟩ : ∃ m, w.registries.classes.find? cat = some m := (Table.contains_iff _ _).mp (by decide)
  have hlive : h.isNull = false := by decide
  refine ⟨hw, hh, hlive, (hpointers h hh).1.mpr hlive, ⟨n, hn, ?_⟩, m, hm, ?_⟩
  · exact ((hobjects o inner.cls n hn).2 inner).mpr ⟨by decide, rfl, by decide⟩
  · -- no part of a dog is a cat
    refine Bool.eq_false_iff.mpr fun hcat => ?_
    obtain ⟨p, hp⟩ := Option.isSome_iff_exists.mp hcat
    obtain ⟨hmem, hcls, -⟩ := ((hobjects o cat m hm).2 p).mp hp
    have hchain : cat ∈ dog.cls.chain := dog.map_cls_parts ▸ hcls ▸ List.mem_map_of_mem hmem
    exact absurd hchain (by decide)

end Multimethod
