/-
  Multimethod.Proofs.Delivery — what a function gets of the arguments that selected it.

  Selection compares descriptions, delivery reads boxes by declared types. Where the
  description of a box is exactly that of a parameter type, the box holds a value of just
  that type (`Presents.holds`): a content of it, a pointer to an object of the very class
  or to nothing as that class, or nothing at all where any value is wanted. Reading it as
  the parameter's type gives that value and asks no converter (`Holds.reads`), so an
  exactly selected function runs on what the boxes hold (`exactly_delivers`).
-/
import Multimethod.Proofs.Arguments
import Multimethod.Proofs.Reading

namespace Multimethod

open Registries (Grows Course)

/-- `v`, of type `t`, is what the box holds: the content as it is, a pointer of an object's
    own class to that object, the pointer to nothing of the class that the box's number has,
    or nothing. -/
inductive Box.Holds (r : Registries) : Box → Ty → Value → Prop
  | nothing : Holds r .null .any (.any .null)
  | content (id : TypeId) (x : Content) : Holds r (.plain id x) x.ty (.plain x)
  | live (id : TypeId) (o : Object) : Holds r (.object id (some o)) (.pointer o.cls) (.pointer ⟨o.cls, some o⟩)
  | nowhere {id : TypeId} {e : Entry} {k : ClassDecl} (he : r.types.entries.find? id = some e)
      (hk : e.ty = .pointer k) : Holds r (.object id none) (.pointer k) (.pointer (Handle.null k))

/-- The values for parameters of the given types: what the box at the place holds, and the
    default value where there is no box any more. -/
inductive Delivers (r : Registries) : List Ty → List Box → List Value → Prop
  | nil : Delivers r [] [] []
  | given {t : Ty} {b : Box} {v : Value} {ts : List Ty} {bs : List Box} {vs : List Value} (h : b.Holds r t v)
      (hrest : Delivers r ts bs vs) : Delivers r (t :: ts) (b :: bs) (v :: vs)
  | missing {t : Ty} {ts : List Ty} {vs : List Value} (hrest : Delivers r ts [] vs) :
      Delivers r (t :: ts) [] (t.default :: vs)

theorem Box.Holds.unique {r : Registries} {b : Box} {t : Ty} {v v' : Value} (h : b.Holds r t v)
    (h' : b.Holds r t v') : v = v' := by
  cases h <;> cases h' <;> rfl

theorem Delivers.unique {r : Registries} {ts : List Ty} {bs : List Box} {vs vs' : List Value}
    (h : Delivers r ts bs vs) (h' : Delivers r ts bs vs') : vs = vs' := by
  induction h generalizing vs' with
  | nil => cases h'; rfl
  | given h _ ih =>
    cases h' with
    | given h' hrest => rw [h.unique h', ih hrest]
  | missing _ ih =>
    cases h' with
    | missing hrest => rw [ih hrest]

/-- Runs a callable on values of its parameter types; the result comes in a box. -/
def Callable.call {n : Nat} (k : Callable n) (vs : List Value) : Run Box := do
  match ← Run.follow (k.body vs) with
  | some v => Step.box v
  | none => return .null

/-! ## Descriptions of types -/

namespace Registries

variable {r s : Registries} {t : Ty} {a p : Descriptor} {b : Box}

/-- `p` is the description of the type `t` in a signature. -/
def OfType (r : Registries) (t : Ty) (p : Descriptor) : Prop :=
  ∃ id, r.types.Numbers t id ∧ p = r.types.descriptor id

theorem OfType.mono (hr : r.Sound) (h : Grows r s) (hp : r.OfType t p) : s.OfType t p := by
  obtain ⟨id, hid, rfl⟩ := hp
  refine ⟨id, h.numbers hid, ?_⟩
  rcases hid with ⟨-, rfl⟩ | ⟨-, hb⟩
  · rfl
  · obtain ⟨e, he, -⟩ := hr.entry_of_byType hb
    exact (h.descriptor he).symm

/-- A type other than that of boxes is described by its number and the node of its class. -/
theorem OfType.entry (hr : r.Sound) (hp : r.OfType t p) (ht : t ≠ .any) :
    ∃ id e, r.types.byType.find? t = some id ∧ r.types.entries.find? id = some e ∧ e.ty = t ∧
      p = ⟨id, e.name, e.node⟩ := by
  obtain ⟨id, ⟨hany, -⟩ | ⟨-, hb⟩, rfl⟩ := hp
  · exact absurd hany ht
  · obtain ⟨e, he, hty⟩ := hr.entry_of_byType hb
    exact ⟨id, e, hb, he, hty, hr.descriptor he⟩

/-- Of types without class only the number counts. -/
theorem isExactly_of_plain (hp : p.node = none) (h : a.isExactly p = true) : a.node = none ∧ a.id = p.id := by
  unfold Descriptor.isExactly Descriptor.isClass at h
  cases ha : a.node with
  | none => simpa [ha, hp] using h
  | some n => simp [ha, hp, Descriptor.sameNode] at h

/-- Of a class only the node counts. -/
theorem isExactly_of_node {m : ClassNode} (hp : p.node = some m) (h : a.isExactly p = true) :
    ∃ n, a.node = some n ∧ n.same m = true := by
  unfold Descriptor.isExactly Descriptor.isClass at h
  cases ha : a.node with
  | none => simp [ha, hp, Descriptor.sameNode] at h
  | some n => exact ⟨n, rfl, by simpa [ha, hp, Descriptor.sameNode] using h⟩

/-! ## What exactly fits a type -/

section

variable {u : Registries} (hg : Grows r u) (hu : u.Sound)
include hg hu

/-- A content presents itself under its number, without a node. -/
theorem Presents.of_content {id : TypeId} {x : Content} (hb : Box.Fits r (.plain id x))
    (ha : u.Presents (.plain id x) a) : a.node = none ∧ a.id = id ∧ u.types.byType.find? x.ty = some id := by
  cases hb with
  | plain hid _ =>
    have hid' := hg.byType hid
    obtain ⟨e, he, hty⟩ := hu.entry_of_byType hid'
    rw [ha.2, hu.descriptor he]
    exact ⟨hu.node_of_plain he (by rw [hty, x.cls?_ty]), rfl, hid'⟩

/-- A pointer presents itself with the node of its object's class, or of its number's class
    when it points to nothing. -/
theorem Presents.of_object {id : TypeId} {target : Option Object} (hb : Box.Fits r (.object id target))
    (ha : u.Presents (.object id target) a) :
    ∃ k n, a.node = some n ∧ u.classes.find? k = some n ∧ (∀ o, target = some o → k = o.cls) ∧
      ∃ e, r.types.entries.find? id = some e ∧ (target = none → e.ty = .pointer k) := by
  cases hb with
  | @object _ e k _ he hk _ =>
    cases target with
    | none =>
      obtain ⟨f, hf, hty, -⟩ := hg.entry he
      obtain ⟨n, hn, hfn⟩ := hu.node_of_pointer hf (hty.trans hk)
      rw [ha.2, hu.descriptor hf]
      exact ⟨k, n, hfn, hn, fun o ho => (by cases ho), e, he, fun _ => hk⟩
    | some o =>
      obtain ⟨-, n, hn, hcached⟩ := ha
      exact ⟨o.cls, n, hn, hcached, fun p hp => (by cases hp; rfl), e, he, fun h => (by cases h)⟩

/-- Only the box with nothing in it presents itself as the type of boxes. -/
theorem Presents.holds_any (hb : b.Fits r) (ha : u.Presents b a) (hnone : a.node = none)
    (hid : a.id = Descriptor.wild.id) : b.Holds r .any (.any .null) := by
  cases b with
  | null => exact .nothing
  | plain id x =>
    obtain ⟨-, hida, hx⟩ := Presents.of_content hg hu hb ha
    obtain ⟨e, he, -⟩ := hu.entry_of_byType hx
    exact absurd (hida.symm.trans hid) (hu.ne_wild he)
  | object id target =>
    obtain ⟨k, n, hn, -⟩ := Presents.of_object hg hu hb ha
    rw [hnone] at hn; cases hn

/-- What presents itself with the node of a class is a pointer of that class: to an object of it,
    or to nothing. -/
theorem Presents.holds_class (hb : b.Fits r) (ha : u.Presents b a) {k : ClassDecl} {n m : ClassNode}
    (hm : u.classes.find? k = some m) (hn : a.node = some n) (hsame : n.same m = true) :
    ∃ v, b.Holds r (.pointer k) v := by
  cases b with
  | null => rw [show a = Descriptor.wild from ha] at hn; cases hn
  | plain id x =>
    obtain ⟨hnone, -⟩ := Presents.of_content hg hu hb ha
    rw [hnone] at hn; cases hn
  | object id target =>
    obtain ⟨k', n', hn', hcached, hlive, f, hf, hnowhere⟩ := Presents.of_object hg hu hb ha
    cases hn.symm.trans hn'
    have hkk : k' = k := hu.classes.eq_of_same hcached hm hsame
    subst hkk
    cases target with
    | none => exact ⟨_, .nowhere hf (hnowhere rfl)⟩
    | some o => rw [hlive o rfl]; exact ⟨_, .live id o⟩

/-- What presents itself under the number of a type, without a node, is a content of the type. -/
theorem Presents.holds_content (hb : b.Fits r) (ha : u.Presents b a) {i : TypeId}
    (hi : u.types.byType.find? t = some i) (hnone : a.node = none) (hid : a.id = i) : ∃ v, b.Holds r t v := by
  cases b with
  | null =>
    rw [show a = Descriptor.wild from ha] at hid
    obtain ⟨e, he, -⟩ := hu.entry_of_byType hi
    exact absurd hid.symm (hu.ne_wild he)
  | plain id x =>
    obtain ⟨-, hida, hx⟩ := Presents.of_content hg hu hb ha
    have hix : id = i := hida.symm.trans hid
    rw [hu.ty_unique hi (hix ▸ hx)]
    exact ⟨_, .content id x⟩
  | object id target =>
    obtain ⟨k, n, hn, -⟩ := Presents.of_object hg hu hb ha
    rw [hnone] at hn; cases hn

/-- A box that presents itself as exactly a type holds a value of the type. -/
theorem Presents.holds (hb : b.Fits r) (ha : u.Presents b a) (hp : u.OfType t p) (h : a.isExactly p = true) :
    ∃ v, b.Holds r t v := by
  by_cases ht : t = .any
  · subst ht
    obtain ⟨_, ⟨-, rfl⟩ | ⟨hne, -⟩, rfl⟩ := hp
    · obtain ⟨hnone, hid⟩ := isExactly_of_plain rfl h
      exact ⟨_, Presents.holds_any hg hu hb ha hnone hid⟩
    · exact absurd rfl hne
  obtain ⟨i, e, hi, he, hty, rfl⟩ := hp.entry hu ht
  -- classes are compared by their nodes, all other types by their numbers
  cases hcls : t.cls? with
  | some k =>
    have htk := Ty.eq_pointer hcls
    subst htk
    obtain ⟨m, hm, hem⟩ := hu.node_of_pointer he hty
    obtain ⟨n, hn, hsame⟩ := isExactly_of_node hem h
    exact Presents.holds_class hg hu hb ha hm hn hsame
  | none =>
    have hnode := hu.node_of_plain he (by rw [hty, hcls])
    obtain ⟨hnone, hid⟩ := isExactly_of_plain hnode h
    exact Presents.holds_content hg hu hb ha hi hnone hid

end

end Registries

/-- The boxes that present themselves as exactly the parameter types hold values for them. -/
theorem Registries.PresentsAll.delivers {r u : Registries} (hg : Grows r u) (hu : u.Sound) {args : List Box}
    {types params : List Descriptor} {ts : List Ty} (hb : ∀ b ∈ args, b.Fits r) (ha : u.PresentsAll args types)
    (hp : List.Forall₂ u.OfType ts params) (hlength : args.length ≤ ts.length)
    (h : Descriptor.allExactly types params = true) : ∃ vs, Delivers r ts args vs := by
  induction hp generalizing args types with
  | nil =>
    cases ha with
    | nil => exact ⟨[], .nil⟩
    | cons _ _ => cases hlength
  | @cons t p ts params hpt _ ih =>
    cases ha with
    | nil =>
      have hnone : u.PresentsAll [] [] := .nil
      obtain ⟨vs, hvs⟩ := ih hb hnone (Nat.zero_le _) rfl
      exact ⟨_, .missing hvs⟩
    | @cons b a args types hba hrest =>
      unfold Descriptor.allExactly at h ih
      simp only [List.zip_cons_cons, List.all_cons, Bool.and_eq_true] at h
      obtain ⟨v, hv⟩ := Presents.holds hg hu (hb b (List.mem_cons_self ..)) hba hpt h.1
      obtain ⟨vs, hvs⟩ := ih (fun b h => hb b (List.mem_cons_of_mem _ h)) hrest (Nat.le_of_succ_le_succ hlength) h.2
      exact ⟨_, .given hv hvs⟩

/-! ## Signatures -/

namespace Step

variable {w : World}

theorem ofType_descriptorOf (t : Ty) (w : World) :
    (descriptorOf t w).2.registries.OfType t (descriptorOf t w).1 :=
  ⟨_, typeId_spec t w, rfl⟩

theorem ofType_mapM (hw : w.registries.Sound) (ts : List Ty) :
    List.Forall₂ (ts.mapM descriptorOf w).2.registries.OfType ts (ts.mapM descriptorOf w).1 := by
  induction ts generalizing w with
  | nil => exact .nil
  | cons t ts ih =>
    have hv := Course.sound hw (isQuiet_descriptorOf t w hw)
    have hgrow := Course.grows hv (isQuiet_mapM isQuiet_descriptorOf ts _ hv)
    simp only [List.mapM_cons, bind_apply, pure_apply]
    exact .cons ((ofType_descriptorOf t w).mono hv hgrow) (ih hv)

end Step

/-- The parameters of a callable's function are described as the callable's types. -/
theorem Function.ofType_params {n : Nat} (k : Callable n) {w : World} (hw : w.registries.Sound) :
    List.Forall₂ (ofCallable k w).2.registries.OfType k.signature.params (ofCallable k w).1.params := by
  have hv := Course.sound hw (Step.isQuiet_mapM Step.isQuiet_descriptorOf k.signature.params w hw)
  have hgrow := Course.grows hv (Step.isQuiet_descriptorOf k.signature.result _ hv)
  exact (Step.ofType_mapM hw k.signature.params).imp fun _ _ h => h.mono hv hgrow

/-- Making the function of a callable asks for the numbers of its types, which a program may. -/
theorem Session.Leads.ofCallable {D : Discipline} {n : Nat} (k : Callable n) (s : Session) :
    s.Leads D ⟨(Function.ofCallable k s.world).2, s.held⟩ := by
  have hparams : ∀ (ts : List Ty) (w : World), s.Leads D ⟨w, s.held⟩ →
      s.Leads D ⟨(ts.mapM Step.descriptorOf w).2, s.held⟩ := by
    intro ts
    induction ts with
    | nil => exact fun _ h => h
    | cons t ts ih =>
      intro w h
      simp only [List.mapM_cons, Step.bind_apply, Step.pure_apply]
      exact ih _ (h.step (.describeType t) trivial 0 rfl)
  exact (hparams k.signature.params s.world .refl).step (.describeType k.signature.result) trivial 0 rfl

/-! ## Reading all arguments -/

/-- What a box holds is what is read from it, as long as its object's class has its node. -/
theorem Box.Holds.reads {r : Registries} {b : Box} {t : Ty} {v : Value} (h : b.Holds r t v) {w : World}
    (hw : w.registries.Sound)
    (hlive : ∀ o, b.object? = some o → ∃ n, w.registries.classes.find? o.cls = some n) : Run.Reads w b t v := by
  cases h with
  | nothing => exact Run.reads_null w .any
  | content id x => exact Run.reads_content w id x
  | live id o =>
    obtain ⟨n, hn⟩ := hlive o rfl
    exact Run.reads_live hw rfl hn
  | @nowhere _ _ k _ _ => exact Run.reads_nowhere w rfl k

theorem Delivers.reads {r : Registries} {ts : List Ty} {bs : List Box} {vs : List Value} (h : Delivers r ts bs vs)
    {w : World} (hw : w.registries.Sound)
    (hlive : ∀ b ∈ bs, ∀ o, b.object? = some o → ∃ n, w.registries.classes.find? o.cls = some n) :
    List.Forall₂ (fun p v => Run.Reads w p.2 p.1 v) (ts.zip (Function.resize .null ts.length bs)) vs := by
  induction h with
  | nil => exact .nil
  | given hb _ ih =>
    exact .cons (hb.reads hw (hlive _ (List.mem_cons_self ..))) (ih fun b h => hlive b (List.mem_cons_of_mem _ h))
  | @missing t _ _ _ ih => exact .cons (Run.reads_null w t) (ih hlive)

/-- A script that reads boxes goes on with the values read. -/
theorem Run.follow_readAll {w : World} {ts : List Ty} {bs : List Box} {vs : List Value}
    (h : List.Forall₂ (fun p v => Reads w p.2 p.1 v) (ts.zip bs) vs) (k : List Value → Script) (c : Caller) :
    follow (Signature.readAll ts bs k) c w = follow (k vs) c w := by
  induction ts generalizing bs vs k with
  | nil => cases h; rfl
  | cons t ts ih =>
    cases bs with
    | nil => cases h; rfl
    | cons b bs =>
      cases h with
      | @cons _ v _ vs hread hrest =>
        obtain ⟨o, ho, rfl⟩ := hread c
        have hstep : follow (Signature.readAll (t :: ts) (b :: bs) k) c w =
            (read b t c w).bind fun p =>
              follow (Signature.readAll ts bs fun vs => k (p.1.getD t.default :: vs)) c p.2 := rfl
        rw [hstep, ho, Option.bind_some]
        exact ih hrest _

/-! ## Exact calls -/

theorem Dispatcher.registries_exactlyArgs {n : Nat} (d : Dispatcher n) (args : List Box) (w : World) :
    (d.exactlyArgs args w).2.registries = (Step.typesOf args w).2.registries := by
  simp only [exactlyArgs, Step.bind_apply, exactly]
  split
  · rfl
  · exact Run.registries_report _ _ _

/-- A box that presents itself has a node for the class of its object. -/
theorem Registries.PresentsAll.cached {r : Registries} {args : List Box} {types : List Descriptor}
    (h : r.PresentsAll args types) : ∀ b ∈ args, ∀ o, b.object? = some o → ∃ n, r.classes.find? o.cls = some n := by
  induction h with
  | nil => exact fun b hb => by cases hb
  | @cons b a _ _ hba _ ih =>
    intro b' hb' o ho
    rcases List.mem_cons.mp hb' with rfl | hb'
    · cases b' with
      | object id target =>
        cases ho
        obtain ⟨-, n, -, hn⟩ := hba
        exact ⟨n, hn⟩
      | _ => cases ho
    · exact ih b' hb' o ho

/-- A function of a callable that arguments select exactly runs the callable, then and at any
    later time, on what their boxes hold and on default values for the missing ones, as if
    called with these values; whatever converters there are, none of them is run. -/
theorem Function.exactly_delivers {D : Discipline} (hD : D.honest) {s : Session} (hs : Session.start.Leads D s)
    {n : Nat} (k : Callable n) {w : World} (hw : w.Reached) (hws : (ofCallable k w).2.Leads s.world)
    (d : Dispatcher n) {args : List Box} (ha : ∀ b ∈ args, Value.From s.held (.any b))
    (hf : (ofCallable k w).1 ∈ (d.exactlyArgs args s.world).1) :
    ∃ vs, Delivers s.world.registries k.signature.params args vs ∧
      ∀ u, (d.exactlyArgs args s.world).2.Leads u → ∀ depth,
        ((ofCallable k w).1.call args).atDepth depth u = (k.call vs).atDepth depth u := by
  have hreach : s.world.Reached := hs.world
  have hb : ∀ b ∈ args, b.Fits s.world.registries := fun b h => D.fits_from hs.good.2 (fun _ => ha b h) hD
  obtain ⟨htest, hall⟩ := Step.presents_typesOf hreach hb
  have hv := hreach.leads htest.leads
  have hgrow := World.Leads.grows hreach htest.leads
  rw [Run.exactlyArgs_fst] at hf
  obtain ⟨hlength, hexact⟩ : (Step.typesOf args s.world).1.length ≤ n ∧
      Descriptor.allExactly (Step.typesOf args s.world).1 (ofCallable k w).1.params = true := by
    simpa using (List.mem_filter.mp hf).2
  have hmade := hw.leads (Session.Leads.ofCallable (D := .free) k ⟨w, []⟩).world
  have hparams := (Function.ofType_params k hw.sound).imp fun _ _ h =>
    h.mono hmade.sound (World.Leads.grows hmade (hws.trans htest.leads))
  obtain ⟨vs, hvs⟩ := hall.delivers hgrow hv.sound hb hparams
    (by rw [hall.length_eq, k.signature.arity]; exact hlength) hexact
  refine ⟨vs, hvs, fun u hu depth => ?_⟩
  have hafter := hreach.leads (.step .refl (.exactlyArgs d args) 0 rfl)
  have hlater : Grows (Step.typesOf args s.world).2.registries u.registries :=
    d.registries_exactlyArgs args s.world ▸ World.Leads.grows hafter hu
  -- the test described the arguments, so the classes of their objects have nodes from then on
  have hreads := hvs.reads (hafter.leads hu).sound fun b h o ho => by
    obtain ⟨m, hm⟩ := hall.cached b h o ho
    exact ⟨m, hlater.node hm⟩
  rw [k.signature.arity] at hreads
  have hfollow := Run.follow_readAll hreads k.body (Script.run depth)
  exact congrArg (Option.bind · _) hfollow

/-- After the type of dogs has got a second number, by which the dog is then described, and
    texts a converter to texts that declines, a function of a dog, a text and a number that is
    called with a dog and a text gets just these, and zero. -/
theorem Function.exactly_delivers_renamed :
    let dog : Object := ⟨0, Instance.initial (.root ⟨"Dog", 0, 4⟩)⟩
    let k : Callable 3 := ⟨⟨[.pointer dog.cls, .text, .int .int32], .text, rfl⟩, fun _ => .decline⟩
    let args : List Box := [.object ⟨TypeId.firstUser⟩ (some dog), .plain ⟨9⟩ (.text "Rex")]
    let d : Dispatcher 3 := ⟨[(ofCallable k World.fresh).1]⟩
    ∃ s : Session, Session.start.Leads ⟨True, False⟩ s ∧
      (Step.typesOf args s.world).1.map Descriptor.id = [⟨TypeId.firstUser + 1⟩, ⟨9⟩] ∧
      s.world.types.converters.contains (⟨9⟩, ⟨9⟩) = true ∧
      ∀ depth, ((ofCallable k World.fresh).1.call args).atDepth depth (d.exactlyArgs args s.world).2 =
        (k.call [.pointer ⟨dog.cls, some dog⟩, .plain (.text "Rex"), (Ty.int .int32).default]).atDepth depth
          (d.exactlyArgs args s.world).2 := by
  intro dog k args d
  let made : Value := .pointer ⟨dog.cls, some dog⟩
  let rex : Value := .plain (.text "Rex")
  let boxed := (Step.box made (ofCallable k World.fresh).2).2
  let renamed := (Step.addAlias (.pointer dog.cls) "Hound" (Step.box rex boxed).2).2
  let s : Session := ⟨(Step.addConverter ⟨.text, .text, fun _ => .decline⟩ renamed).2,
    [.value (.any (Step.box rex boxed).1), .value (.any (Step.box made (ofCallable k World.fresh).2).1)]⟩
  have hstart : Session.start.Leads ⟨True, False⟩ ⟨(ofCallable k World.fresh).2, []⟩ := .ofCallable k Session.start
  have hlater : Session.Leads ⟨True, False⟩ ⟨(ofCallable k World.fresh).2, []⟩ s := by
    have hmade := (Session.Leads.refl (D := ⟨True, False⟩) (s := ⟨(ofCallable k World.fresh).2, []⟩)).box (v := made)
      fun _ => .object dog
    have hrex := hmade.box (v := rex) fun _ => .content fun b hb => by cases hb
    have hrenamed := hrex.act (.addAlias (.pointer dog.cls) "Hound") (fun _ v hv => by cases hv) rfl
    exact hrenamed.addConverter ⟨.text, .text, fun _ => .decline⟩ fun _ => trivial
  have hdog : (Step.box made (ofCallable k World.fresh).2).1 = .object ⟨TypeId.firstUser⟩ (some dog) := by
    have hid : (Step.typeId (.pointer dog.cls) (ofCallable k World.fresh).2).1 = ⟨TypeId.firstUser⟩ := by
      rw [World.fresh_eq]; decide
    rw [Step.box_pointer, hid]
  have htext : (Step.box rex boxed).1 = .plain ⟨9⟩ (.text "Rex") := by
    rw [Step.box_plain (c := .text "Rex") (i := ⟨9⟩) (by simp only [boxed, World.fresh_eq]; decide)]
  have hheld : s.held = [.value (.any (.plain ⟨9⟩ (.text "Rex"))),
      .value (.any (.object ⟨TypeId.firstUser⟩ (some dog)))] := by
    show [Fact.value (.any (Step.box rex boxed).1), Fact.value (.any (Step.box made (ofCallable k World.fresh).2).1)] = _
    rw [htext, hdog]
  have hargs : ∀ b ∈ args, Value.From s.held (.any b) := fun b hb => by
    refine .held ?_
    rw [hheld]
    rcases List.mem_cons.mp hb with rfl | hb
    · exact List.mem_cons_of_mem _ (List.mem_cons_self ..)
    · cases List.mem_singleton.mp hb; exact List.mem_cons_self ..
  have hselected : (ofCallable k World.fresh).1 ∈ (d.exactlyArgs args s.world).1 := by
    rw [Run.exactlyArgs_fst]
    refine List.mem_filter.mpr ⟨List.mem_singleton.mpr rfl, ?_⟩
    simp only [s, renamed, boxed, World.fresh_eq]
    decide
  have hfresh : World.fresh.Reached := .refl
  have hmade := hlater.world
  dsimp only at hmade
  obtain ⟨vs, hvs, hcall⟩ := Function.exactly_delivers trivial (hstart.trans hlater) k hfresh hmade d hargs hselected
  have hvalues := hvs.unique (.given (.live _ dog) (.given (.content _ (.text "Rex")) (.missing .nil)))
  rw [hvalues] at hcall
  have hnumbers : (Step.typesOf args s.world).1.map Descriptor.id = [⟨TypeId.firstUser + 1⟩, ⟨9⟩] ∧
      s.world.types.converters.contains (⟨9⟩, ⟨9⟩) = true := by
    simp only [s, renamed, boxed, World.fresh_eq]
    decide
  exact ⟨s, hstart.trans hlater, hnumbers.1, hnumbers.2, hcall _ .refl⟩

end Multimethod
