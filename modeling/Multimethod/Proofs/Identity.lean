/-
  Multimethod.Proofs.Identity — an object stays the same object on every route.

  A pointer to an object may be cast, copied, put into a box and read back, made anew from
  the object, and its box may be converted, while a program does whatever else in between
  (`Object.Carried`). The static types on the way do not matter: what is carried is that
  object or nothing (`Carrier.Of`), a hop to a class arrives with the object exactly when
  the object's own class inherits it (`Hop.arrives`), and a box with the object is
  described by the object's own class (`Descriptor.Identifies`).
-/
import Multimethod.Proofs.Reading
import Multimethod.Proofs.Runs

namespace Multimethod

open Registries (Grows Course)

/-! ## Routes -/

/-- A pointer, or a box. -/
inductive Carrier where
  | handle (h : Handle)
  | box (b : Box)

/-- The object that is pointed to. -/
def Carrier.object? : Carrier → Option Object
  | handle h => h.target
  | box b => b.object?

/-- One step on a route. -/
inductive Hop where
  | clone
  /-- a pointer to the same object, of another static class -/
  | cast (c : ClassDecl)
  /-- the pointer in a box -/
  | enclose
  /-- the pointer read from a box, to nothing if it cannot be read -/
  | value (c : ClassDecl)
  /-- the pointer read from a box, if it can be read -/
  | tryValue (c : ClassDecl)
  /-- a pointer made from the object -/
  | fromObject (c : ClassDecl)
  /-- the box with another static type -/
  | convert (id : TypeId)

/-- The pointer that a value is. -/
def Value.carrier? : Value → Option Carrier
  | pointer h => some (.handle h)
  | _ => none

/-- Does one step; there may be nothing to go on with. -/
def Hop.run : Hop → Carrier → Run (Option Carrier)
  | clone, x => return some x
  | cast c, .handle h => return some (.handle (← Step.cast h c))
  | enclose, .handle h => return some (.box (← Step.box (.pointer h)))
  | enclose, .box b => return some (.box (← Step.box (.any b)))
  | value c, .box b => return (← Run.readOr b (.pointer c)).carrier?
  | tryValue c, .box b => return (← Run.read b (.pointer c)).bind Value.carrier?
  | fromObject c, x =>
    match x.object? with
    | some o => return (← Step.pointTo o c).map .handle
    | none => return none
  | convert id, .box b => return some (.box (← Run.convert b id))
  | _, _ => return none

/-- The static class of a pointer, or of the pointer in a box. -/
def Carrier.Static (w : World) : Carrier → ClassDecl → Prop
  | handle h, d => h.cls = d
  | box (.object id _), d => w.types.Points id d
  | box _, _ => False

/-- The class that a step leads to. -/
def Hop.Toward (w : World) : Hop → Carrier → ClassDecl → Prop
  | clone, x, d => x.Static w d
  | enclose, x, d => x.Static w d
  | cast c, .handle _, d => c = d
  | value c, .box _, d => c = d
  | tryValue c, .box _, d => c = d
  | fromObject c, _, d => c = d
  | convert id, .box _, d => w.types.Points id d
  | _, _, _ => False

/-- What a route that starts with a pointer to `o`, of its own class, may carry in the world
    `w`, whatever operations there are on the way. -/
inductive Object.Carried (o : Object) : World → Carrier → Prop
  | start {w : World} (hw : w.Reached) : Carried o w (.handle ⟨o.cls, some o⟩)
  | later {w v : World} {x : Carrier} (h : Carried o w x) (hv : w.Leads v) : Carried o v x
  | hop {w v : World} {x y : Carrier} (h : Carried o w x) (hop : Hop) (depth : Nat)
      (hr : (hop.run x).atDepth depth w = some (some y, v)) : Carried o v y

/-- `a` describes an object by its own class: by the node of the class, whose pointer type is
    registered, the greatest number with that node, and the name of this number. -/
structure Descriptor.Identifies (a : Descriptor) (o : Object) (w : World) : Prop where
  node : ∃ n, a.node = some n ∧ Step.node o.cls w = (n, w)
  registered : ∃ i, Step.idOf (.pointer o.cls) w = (i, w)
  greatest : w.types.Last (fun e => e.node = a.node) a.id
  name : ∃ e, w.types.entries.find? a.id = some e ∧ e.name = a.name

theorem Descriptor.Identifies.unique {a b : Descriptor} {o : Object} {w : World} (ha : a.Identifies o w)
    (hb : b.Identifies o w) : a = b := by
  obtain ⟨n, han, hn⟩ := ha.node
  obtain ⟨m, hbm, hm⟩ := hb.node
  have hnode : a.node = b.node := by
    cases hn.symm.trans hm
    exact han.trans hbm.symm
  have hid : a.id = b.id := ha.greatest.unique (hnode ▸ hb.greatest)
  obtain ⟨e, he, hea⟩ := ha.name
  obtain ⟨f, hf, hfb⟩ := hb.name
  have hname : a.name = b.name := by
    cases (hid ▸ he).symm.trans hf
    exact hea.symm.trans hfb
  cases a; cases b; simp_all

/-! ## Live objects in boxes -/

namespace Step

variable {w : World}

/-- Describing a live object registers its own pointer type, at most, and identifies it. -/
theorem describe_identifies (hw : w.registries.Sound) (id : TypeId) (o : Object) :
    (describe (.object id (some o)) w).2 = (idOf (.pointer o.cls) (node o.cls w).2).2 ∧
      (describe (.object id (some o)) w).1.Identifies o (describe (.object id (some o)) w).2 := by
  have hsound := Course.sound hw (isQuiet_node o.cls w hw)
  have hn := find?_node o.cls w
  have hdescribe : describe (.object id (some o)) w =
      (⟨(highestId (node o.cls w).1 (node o.cls w).2).1,
        ((highestId (node o.cls w).1 (node o.cls w).2).2.types.descriptor
          (highestId (node o.cls w).1 (node o.cls w).2).1).name, some (node o.cls w).1⟩,
        (highestId (node o.cls w).1 (node o.cls w).2).2) := rfl
  have hworld : (highestId (node o.cls w).1 (node o.cls w).2).2 = (idOf (.pointer o.cls) (node o.cls w).2).2 := by
    show (idOf (.pointer (node o.cls w).1.decl) (node o.cls w).2).2 = _
    rw [hsound.classes.decl hn]
  have hquiet := isQuiet_highestId (node o.cls w).1 _ hsound
  have hlast := highestId_spec hsound hn
  obtain ⟨e, he, -⟩ := hlast.1
  rw [hdescribe]
  refine ⟨hworld, ⟨_, rfl, node_of_cached ((Course.grows hsound hquiet).node hn)⟩, ?_, hlast, e, he, ?_⟩
  · dsimp only
    rw [hworld]
    exact ⟨_, idOf_of_bound (idOf_spec _ _)⟩
  · dsimp only
    rw [(Course.sound hsound hquiet).descriptor he]

/-- Describing an object registers nothing where its class and its pointer type are known. -/
theorem describe_of_known (hw : w.registries.Sound) (id : TypeId) {o : Object} {n : ClassNode} {i : TypeId}
    (hn : node o.cls w = (n, w)) (hi : idOf (.pointer o.cls) w = (i, w)) :
    (describe (.object id (some o)) w).2 = w := by
  rw [(describe_identifies hw id o).1, hn, hi]

/-- A box that was described is described so again, and nothing more is registered. -/
theorem describe_describe (hw : w.registries.Sound) (b : Box) : describe b (describe b w).2 = describe b w := by
  cases b with
  | null => rfl
  | plain _ _ => rfl
  | object id target =>
    cases target with
    | none => rfl
    | some o =>
      have hv := Course.sound hw (isQuiet_describe (.object id (some o)) w hw)
      obtain ⟨-, hfirst⟩ := describe_identifies hw id o
      obtain ⟨-, hagain⟩ := describe_identifies hv id o
      obtain ⟨n, -, hnode⟩ := hfirst.node
      obtain ⟨i, hid⟩ := hfirst.registered
      have hsame := describe_of_known hv id hnode hid
      rw [hsame] at hagain
      exact Prod.ext (hagain.unique hfirst) hsame

end Step

/-! ## One step -/

/-- The carrier has the object or nothing, under a static class that fits. -/
inductive Carrier.Of (r : Registries) (o : Object) : Carrier → Prop
  | nowhere (k : ClassDecl) : Of r o (.handle (Handle.null k))
  | pointer {k : ClassDecl} (hk : k ∈ o.cls.chain) : Of r o (.handle ⟨k, some o⟩)
  | nothing : Of r o (.box .null)
  | empty {id : TypeId} {k : ClassDecl} (hid : r.types.Points id k) : Of r o (.box (.object id none))
  | boxed {id : TypeId} {k : ClassDecl} (hid : r.types.Points id k) (hk : k ∈ o.cls.chain) :
      Of r o (.box (.object id (some o)))

/-- From `x` the step ends with the object or with nothing; when it leads from the object to a
    class, with the object exactly if that is a class of its own class's chain. -/
def Hop.Arrives (o : Object) (w : World) (hop : Hop) (x : Carrier) : Prop :=
  ∃ y v, (∀ c, hop.run x c w = some (y, v)) ∧ (∀ z ∈ y, z.Of v.registries o) ∧
    (x.object? = some o → ∀ d, hop.Toward w x d →
      y.bind Carrier.object? = if d ∈ o.cls.chain then some o else none)

namespace Carrier.Of

variable {w : World} {o : Object}

theorem mono {r s : Registries} (h : Grows r s) {x : Carrier} (hx : x.Of r o) : x.Of s o := by
  cases hx with
  | nowhere k => exact .nowhere k
  | pointer hk => exact .pointer hk
  | nothing => exact .nothing
  | empty hid => exact .empty (hid.mono h)
  | boxed hid hk => exact .boxed (hid.mono h) hk

theorem object {r : Registries} {x : Carrier} (hx : x.Of r o) {p : Object} (hp : x.object? = some p) : p = o := by
  cases hx <;> cases hp <;> rfl

/-- What carries the object is static of a class that the object's class inherits. -/
theorem static {x : Carrier} (hx : x.Of w.registries o) (hlive : x.object? = some o) {d : ClassDecl}
    (hd : x.Static w d) : d ∈ o.cls.chain := by
  cases hx with
  | nowhere k => cases hlive
  | pointer hk => exact hd ▸ hk
  | nothing => cases hlive
  | empty _ => cases hlive
  | boxed hid hk =>
    obtain ⟨e, he, hty⟩ := hid
    obtain ⟨f, hf, hfty⟩ := hd
    cases he.symm.trans hf
    cases hty.symm.trans hfty; exact hk

end Carrier.Of

namespace Hop

variable {w : World} {o : Object} {x : Carrier} {hop : Hop}

/-! ### Where nothing changes -/

theorem arrives_self (hx : x.Of w.registries o) (hrun : ∀ c, hop.run x c w = some (some x, w))
    (hto : ∀ d, hop.Toward w x d → x.Static w d) : hop.Arrives o w x := by
  refine ⟨some x, w, hrun, fun z hz => by cases hz; exact hx, ?_⟩
  intro hlive d hd
  rw [if_pos (hx.static hlive (hto d hd))]; exact hlive

/-- A step for something else. -/
theorem arrives_none (hrun : ∀ c, hop.run x c w = some (none, w)) (hto : ∀ d, ¬ hop.Toward w x d) :
    hop.Arrives o w x :=
  ⟨none, w, hrun, fun _ hz => (by cases hz), fun _ d hd => absurd hd (hto d)⟩

/-- From nothing comes nothing. -/
theorem arrives_nothing {y : Option Carrier} {v : World} (hx : x.object? = none)
    (hrun : ∀ c, hop.run x c w = some (y, v)) (hy : ∀ z ∈ y, z.Of v.registries o) : hop.Arrives o w x :=
  ⟨y, v, hrun, hy, fun hlive => by rw [hx] at hlive; cases hlive⟩

/-! ### Pointers -/

/-- A step that gives a pointer to the object as one of the class `d`, or fails as `lost`. -/
theorem arrives_pointTo {d : ClassDecl} (lost : Option Carrier) (hlost : ∀ z ∈ lost, z = .handle (Handle.null d))
    (v : World) (hrun : ∀ c, hop.run x c w = some (if d ∈ o.cls.chain then some (.handle ⟨d, some o⟩) else lost, v))
    (hto : ∀ d', hop.Toward w x d' → d = d') : hop.Arrives o w x := by
  refine ⟨_, v, hrun, fun z hz => ?_, fun _ d' hd => ?_⟩
  · split at hz
    · cases hz; exact .pointer ‹_›
    · rw [hlost z hz]; exact .nowhere d
  · cases hto d' hd
    split
    · rfl
    · cases lost with
      | none => rfl
      | some z => rw [hlost z rfl]; rfl

/-- What a pointer's box is converted to. -/
theorem run_convert (id wanted : TypeId) (target : Option Object) (c : Caller) :
    (convert wanted).run (.box (.object id target)) c w =
      some (some (.box (if (Step.canConvert (.object id target) wanted w).1 then .object wanted target else .null)),
        (Step.canConvert (.object id target) wanted w).2) := by
  show (Run.convert (.object id target) wanted >>= fun b => pure (some (Carrier.box b))) c w = _
  rw [Run.bind_apply, Run.convert_object]; rfl

section

variable (hw : w.registries.Sound) (hx : x.Of w.registries o)
include hw hx

theorem arrives_cast (d : ClassDecl) : (cast d).Arrives o w x := by
  cases hx with
  | nowhere k => exact arrives_nothing rfl (fun _ => rfl) fun z hz => by cases hz; exact .nowhere d
  | pointer _ =>
    refine arrives_pointTo (some (.handle (Handle.null d))) (fun z hz => (by cases hz; rfl)) (Step.pointTo o d w).2
      (fun c => ?_) fun _ hd => hd
    show some (some (Carrier.handle ((Step.pointTo o d w).1.getD (Handle.null d))), (Step.pointTo o d w).2) = _
    rw [Step.pointTo_fst hw]
    split <;> rfl
  | nothing => exact arrives_none (fun _ => rfl) fun _ => id
  | empty _ => exact arrives_none (fun _ => rfl) fun _ => id
  | boxed _ _ => exact arrives_none (fun _ => rfl) fun _ => id

theorem arrives_fromObject (d : ClassDecl) : (fromObject d).Arrives o w x := by
  have live (hrun : ∀ c, (fromObject d).run x c w =
      some ((Step.pointTo o d w).1.map Carrier.handle, (Step.pointTo o d w).2)) : (fromObject d).Arrives o w x := by
    refine arrives_pointTo none (fun z hz => (by cases hz)) (Step.pointTo o d w).2 (fun c => ?_) fun _ hd => hd
    rw [hrun, Step.pointTo_fst hw]
    split <;> rfl
  cases hx with
  | nowhere k => exact arrives_nothing rfl (fun _ => rfl) fun _ hz => by cases hz
  | pointer _ => exact live fun _ => rfl
  | nothing => exact arrives_nothing rfl (fun _ => rfl) fun _ hz => by cases hz
  | empty _ => exact arrives_nothing rfl (fun _ => rfl) fun _ hz => by cases hz
  | boxed _ _ => exact live fun _ => rfl

theorem arrives_tryValue (d : ClassDecl) : (tryValue d).Arrives o w x := by
  cases hx with
  | nowhere k => exact arrives_none (fun _ => rfl) fun _ => id
  | pointer _ => exact arrives_none (fun _ => rfl) fun _ => id
  | nothing => exact arrives_nothing rfl (fun _ => rfl) fun _ hz => by cases hz
  | empty _ => exact arrives_nothing rfl (fun _ => rfl) fun _ hz => by cases hz
  | @boxed id _ _ _ =>
    refine arrives_pointTo none (fun z hz => (by cases hz)) (Step.pointTo o d w).2 (fun c => ?_) fun _ hd => hd
    have hread := Run.read_pointer_of_object (b := .object id (some o)) rfl d c w
    show (Run.read (.object id (some o)) (.pointer d) >>= fun v => pure (v.bind Value.carrier?)) c w = _
    rw [Run.bind_apply, hread, Step.pointTo_fst hw]
    split <;> rfl

theorem arrives_value (d : ClassDecl) : (value d).Arrives o w x := by
  cases hx with
  | nowhere k => exact arrives_none (fun _ => rfl) fun _ => id
  | pointer _ => exact arrives_none (fun _ => rfl) fun _ => id
  | nothing => exact arrives_nothing rfl (fun _ => rfl) fun z hz => by cases hz; exact .nowhere d
  | empty _ => exact arrives_nothing rfl (fun _ => rfl) fun z hz => by cases hz; exact .nowhere d
  | @boxed id _ _ _ =>
    refine arrives_pointTo (some (.handle (Handle.null d))) (fun z hz => (by cases hz; rfl)) (Step.pointTo o d w).2
      (fun c => ?_) fun _ hd => hd
    have hread := Run.read_pointer_of_object (b := .object id (some o)) rfl d c w
    show (Run.readOr (.object id (some o)) (.pointer d) >>= fun v => pure v.carrier?) c w = _
    rw [Run.readOr, Run.bind_apply, Run.bind_apply, hread, Step.pointTo_fst hw]
    split <;> rfl

/-! ### Boxes -/

theorem arrives_enclose : enclose.Arrives o w x := by
  have hquiet := fun k => Step.isQuiet_typeId (.pointer k) w hw
  have hpoints : ∀ k, (Step.typeId (.pointer k) w).2.types.Points (Step.typeId (.pointer k) w).1 k := fun k => by
    rcases Step.typeId_spec (.pointer k) w with ⟨hany, -⟩ | ⟨-, hid⟩
    · cases hany
    · exact (Course.sound hw (hquiet k)).entry_of_byType hid
  cases hx with
  | nowhere k => exact arrives_nothing rfl (fun _ => rfl) fun z hz => by cases hz; exact .empty (hpoints k)
  | @pointer k hk =>
    refine ⟨_, _, fun _ => rfl, fun z hz => by cases hz; exact .boxed (hpoints k) hk, fun _ d hd => ?_⟩
    cases show k = d from hd
    rw [if_pos hk]; rfl
  | nothing => exact arrives_self .nothing (fun _ => rfl) fun _ => id
  | empty hid => exact arrives_self (.empty hid) (fun _ => rfl) fun _ => id
  | boxed hid hk => exact arrives_self (.boxed hid hk) (fun _ => rfl) fun _ => id

theorem arrives_convert (wanted : TypeId) : (convert wanted).Arrives o w x := by
  have of : ∀ {id target}, Carrier.Of w.registries o (.box (.object id target)) → (target = none ∨ target = some o) →
      Carrier.Of (Step.canConvert (.object id target) wanted w).2.registries o
        (.box (if (Step.canConvert (.object id target) wanted w).1 then .object wanted target else .null)) := by
    intro id target hb ht
    split
    · rename_i hcan
      have hid : ∃ e k, w.types.entries.find? id = some e ∧ e.ty = .pointer k := by
        cases hb with
        | empty hid => exact hid.imp fun _ he => ⟨_, he⟩
        | boxed hid _ => exact hid.imp fun _ he => ⟨_, he⟩
      obtain ⟨e, k, he, hk, hlive⟩ := Step.canConvert_points hw hid hcan
      rcases ht with rfl | rfl
      · exact .empty ⟨e, he, hk⟩
      · exact .boxed ⟨e, he, hk⟩ (hlive o rfl).1
    · exact .nothing
  cases hx with
  | nowhere k => exact arrives_none (fun _ => rfl) fun _ => id
  | pointer _ => exact arrives_none (fun _ => rfl) fun _ => id
  | nothing =>
    have hrun : ∀ c, (convert wanted).run (.box .null) c w = some (some (.box .null), w) := fun c => by
      show (Run.convert .null wanted >>= fun b => pure (some (Carrier.box b))) c w = _
      rw [Run.bind_apply, Run.convert_null]; rfl
    exact arrives_nothing rfl hrun fun z hz => by cases hz; exact .nothing
  | @empty id _ hid =>
    refine arrives_nothing rfl (fun c => run_convert id wanted none c) fun z hz => ?_
    cases hz; exact of (.empty hid) (.inl rfl)
  | @boxed id _ hid hk =>
    refine ⟨_, _, fun c => run_convert id wanted (some o) c, fun z hz => ?_, fun _ d hd => ?_⟩
    · cases hz; exact of (.boxed hid hk) (.inr rfl)
    · have hcan := Step.canConvert_live (o := o) hw id hd
      by_cases hchain : d ∈ o.cls.chain
      · rw [if_pos hchain, if_pos (hcan.mpr hchain)]; rfl
      · rw [if_neg hchain, if_neg (hchain ∘ hcan.mp)]; rfl

end

/-- Every step, from the object or from nothing. -/
theorem arrives (hw : w.registries.Sound) (hx : x.Of w.registries o) (hop : Hop) : hop.Arrives o w x := by
  cases hop with
  | clone => exact arrives_self hx (fun _ => rfl) fun _ => id
  | cast d => exact arrives_cast hw hx d
  | enclose => exact arrives_enclose hw hx
  | value d => exact arrives_value hw hx d
  | tryValue d => exact arrives_tryValue hw hx d
  | fromObject d => exact arrives_fromObject hw hx d
  | convert id => exact arrives_convert hw hx id

/-- A step is an operation of the program, or none. -/
theorem leads {depth : Nat} {y : Option Carrier} {v : World} (hr : (hop.run x).atDepth depth w = some (y, v)) :
    w.Leads v := by
  have act (a : Action) {r : a.Reply} {u : World} (h : Run.perform a (Script.run depth) w = some (r, u)) : w.Leads u :=
    .step .refl (.act a) depth (Run.bind_eq_some.mpr ⟨r, u, h, rfl⟩)
  unfold run at hr
  split at hr
  case h_1 => cases hr; exact .refl
  case h_2 h => cases hr; exact act (.cast h _) rfl
  case h_3 h => cases hr; exact act (.box (.pointer h)) rfl
  case h_4 b => cases hr; exact .refl
  case h_5 d b =>
    obtain ⟨_, _, hvalue, hr⟩ := Run.bind_eq_some.mp hr
    obtain ⟨_, _, hread, hvalue⟩ := Run.bind_eq_some.mp hvalue
    cases hvalue; cases hr
    exact act (.read b (.pointer d)) hread
  case h_6 d b =>
    obtain ⟨_, _, hread, hr⟩ := Run.bind_eq_some.mp hr
    cases hr
    exact act (.read b (.pointer d)) hread
  case h_7 x d =>
    split at hr
    · cases hr; exact act (.pointTo _ d) rfl
    · cases hr; exact .refl
  case h_8 id b =>
    obtain ⟨_, _, hconvert, hr⟩ := Run.bind_eq_some.mp hr
    cases hr
    exact act (.convert b id) hconvert
  case h_9 => cases hr; exact .refl

end Hop

/-! ## Whole routes -/

/-- A route stays in the worlds of the program and carries the object or nothing. -/
theorem Object.Carried.of {o : Object} {w : World} {x : Carrier} (h : o.Carried w x) :
    w.Reached ∧ x.Of w.registries o := by
  induction h with
  | start hw => exact ⟨hw, .pointer o.cls.self_mem_chain⟩
  -- other operations do not touch what is carried, they only add to the registries
  | later _ hv ih => exact ⟨ih.1.leads hv, ih.2.mono (World.Leads.grows ih.1 hv)⟩
  | hop _ hop depth hr ih =>
    obtain ⟨hw, hx⟩ := ih
    refine ⟨hw.leads (Hop.leads hr), ?_⟩
    obtain ⟨_, _, hrun, hof, -⟩ := hop.arrives hw.sound hx
    cases (hrun _).symm.trans hr
    exact hof _ rfl

theorem Object.Carried.cast {o : Object} {w : World} {h : Handle} (hc : o.Carried w (.handle h)) (d : ClassDecl) :
    o.Carried (Step.cast h d w).2 (.handle (Step.cast h d w).1) := hc.hop (.cast d) 0 rfl

theorem Object.Carried.enclose {o : Object} {w : World} {h : Handle} (hc : o.Carried w (.handle h)) :
    o.Carried (Step.box (.pointer h) w).2 (.box (Step.box (.pointer h) w).1) := hc.hop .enclose 0 rfl

/-- Whatever route an object takes and whatever the program does on the way: no other object is
    met; from the object, a step to a class ends at any depth, with the object itself if its
    own class inherits that one and with nothing otherwise; and a box with the object is
    described by the object's own class, which at most registers the pointer type of that. -/
theorem Object.Carried.identity {o : Object} {w : World} {x : Carrier} (h : o.Carried w x) :
    (∀ p, x.object? = some p → p = o) ∧
    (x.object? = some o → ∀ (hop : Hop) d, hop.Toward w x d → ∃ y v,
      (∀ depth, (hop.run x).atDepth depth w = some (y, v)) ∧
      y.bind Carrier.object? = if d ∈ o.cls.chain then some o else none) ∧
    ∀ b, x = .box b → b.object? = some o →
      (Step.describe b w).2 = (Step.idOf (.pointer o.cls) (Step.node o.cls w).2).2 ∧
      (Step.describe b w).1.Identifies o (Step.describe b w).2 := by
  obtain ⟨hw, hx⟩ := h.of
  refine ⟨fun p hp => hx.object hp, fun hlive hop d hd => ?_, fun b _ hlive => ?_⟩
  · obtain ⟨y, v, hrun, -, hy⟩ := hop.arrives hw.sound hx
    exact ⟨y, v, fun depth => hrun _, hy hlive d hd⟩
  · cases b with
    | null => cases hlive
    | plain _ _ => cases hlive
    | object id target =>
      cases hlive
      exact Step.describe_identifies hw.sound id o

/-- A dog that is cast to an animal and boxed as that, whose type then gets a second number: it
    is described by this number, and read as a dog from the box, not as a cat. -/
theorem Object.Carried.identity_renamed :
    let animal : ClassDecl := .root ⟨"Animal", 0, 4⟩
    let dog : Object := ⟨0, Instance.initial (.derived ⟨"Dog", 0, 40⟩ animal)⟩
    let cat : ClassDecl := .derived ⟨"Cat", 0, 9⟩ animal
    let b : Box := .object ⟨TypeId.firstUser⟩ (some dog)
    ∃ w, dog.Carried w (.box b) ∧ (Step.describe b w).1.Identifies dog (Step.describe b w).2 ∧
      (Step.describe b w).1.id = ⟨TypeId.firstUser + 2⟩ ∧ (Step.describe b w).1.name = "Hound" ∧
      (∃ y v, ((Hop.value dog.cls).run (.box b)).atDepth 0 w = some (y, v) ∧ y.bind Carrier.object? = some dog) ∧
      ∃ y v, ((Hop.value cat).run (.box b)).atDepth 0 w = some (y, v) ∧ y.bind Carrier.object? = none := by
  intro animal dog cat b
  let made : Handle := ⟨dog.cls, some dog⟩
  let upcast := Step.cast made animal World.fresh
  let boxed := Step.box (.pointer upcast.1) upcast.2
  let w := (Step.addAlias (.pointer dog.cls) "Hound" boxed.2).2
  have hstart : dog.Carried World.fresh (.handle made) := .start .refl
  have hbox : dog.Carried boxed.2 (.box boxed.1) := (hstart.cast animal).enclose
  have hb : boxed.1 = b := by
    have hpointer : upcast.1 = ⟨animal, some dog⟩ := by simp only [upcast, World.fresh_eq]; decide
    have hid : (Step.typeId (.pointer animal) upcast.2).1 = ⟨TypeId.firstUser⟩ := by
      simp only [upcast, World.fresh_eq]; decide
    simp only [boxed, Step.box_pointer, hpointer, hid]; rfl
  rw [hb] at hbox
  have h : dog.Carried w (.box b) := hbox.later (.addAlias boxed.2 (.pointer dog.cls) "Hound")
  obtain ⟨-, hstep, hdescribe⟩ := Object.Carried.identity h
  obtain ⟨y, v, hrun, hy⟩ := hstep rfl (.value dog.cls) dog.cls rfl
  obtain ⟨z, u, hrun', hz⟩ := hstep rfl (.value cat) cat rfl
  have hhound : (Step.describe b w).1.id = ⟨TypeId.firstUser + 2⟩ ∧ (Step.describe b w).1.name = "Hound" := by
    simp only [w, boxed, upcast, World.fresh_eq]
    decide
  exact ⟨w, h, (hdescribe b rfl rfl).2, hhound.1, hhound.2, ⟨y, v, hrun 0, hy⟩, z, u, hrun' 0, hz⟩

end Multimethod
