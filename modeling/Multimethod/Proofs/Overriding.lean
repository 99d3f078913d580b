/-
  Multimethod.Proofs.Overriding — shadowing gives virtual dispatch.

  A dispatcher whose functions take class pointers works like a table of methods: a call for
  an object goes to the function of the nearest class on the object's chain that has one
  (`Dispatcher.inherited?`), and of several for one class to the last. The "one" call knows
  nothing of chains: it takes the last function that accepts the argument. The two agree as
  long as functions for a class are appended before those for classes derived from it
  (`Dispatcher.BasesFirst`).
  - Between classes the type test asks the links between nodes and nothing else, so what
    accepts an argument can be filtered out (`Run.isConvertible_nodes`, `Run.select_eq_filter`).
  - What accepts an argument of a class is what is for the class itself or accepts one of the
    parent class; in a list with bases first, the last one of the former comes after all of
    the latter (`getLast?_filter_or`). Up the chain, that gives the nearest (`inherited?_eq`).
-/
import Mathlib.Data.List.Induction
import Multimethod.Proofs.Shadowing

namespace Multimethod

/-- In a list where no `q` comes after a `p`, the last element that is either is the last `p` if
    there is one, else the last `q`. -/
theorem getLast?_filter_or {α : Type} {p q : α → Bool} {l : List α}
    (h : l.Pairwise fun x y => p x = true → ¬ q y = true) :
    (l.filter fun x => p x || q x).getLast? = (l.filter p).getLast?.or (l.filter q).getLast? := by
  induction l using List.reverseRecOn with
  | nil => rfl
  | append_singleton l a ih =>
    obtain ⟨hl, -, hlast⟩ := List.pairwise_append.mp h
    cases hp : p a with
    | true => simp [hp]
    | false =>
      cases hq : q a with
      | true =>
        have hnone : l.filter p = [] :=
          List.filter_eq_nil_iff.mpr fun x hx hpx => hlast x hx a (List.mem_singleton.mpr rfl) hpx hq
        simp [hp, hq, hnone]
      | false => simp [hp, hq, ih hl]

/-! ## Functions by class -/

/-- The node of the class that the function takes pointers of. -/
def Function.node? (f : Function 1) : Option ClassNode := f.params.head?.bind Descriptor.node

/-- The function takes class pointers, under any number of the class. -/
def Function.TakesClass (f : Function 1) (w : World) : Prop := ∃ p, f.params = [p] ∧ p.Taken w ∧ p.isClass = true

namespace Dispatcher

/-- The functions for one class, in order. -/
def ofClass (d : Dispatcher 1) (n : ClassNode) : List (Function 1) :=
  d.functions.filter fun f => Descriptor.sameNode f.node? (some n)

/-- The last function for the nearest class, from `n` up its chain, that has a function. -/
def inherited? (d : Dispatcher 1) (n : ClassNode) : Option (Function 1) :=
  n.ancestors.findSome? fun m => (d.ofClass m).getLast?

/-- No function comes after one for a class that is derived from its own. -/
def BasesFirst (d : Dispatcher 1) : Prop :=
  d.functions.Pairwise fun f g =>
    ∀ m k, f.node? = some m → g.node? = some k → m.inherits k = true → m.same k = true

/-! ## One link of the chain at a time -/

section

variable (d : Dispatcher 1) (s : Nat) (c : ClassDecl) (above : ClassNode)

theorem inherited?_root : d.inherited? (.root s c) = (d.ofClass (.root s c)).getLast? := by
  simp only [inherited?, ClassNode.ancestors, List.findSome?_cons, List.findSome?_nil]
  cases (d.ofClass (.root s c)).getLast? <;> rfl

/-- A class without functions of its own has those of the class above. -/
theorem inherited?_derived :
    d.inherited? (.derived s c above) = (d.ofClass (.derived s c above)).getLast?.or (d.inherited? above) := by
  simp only [inherited?, ClassNode.ancestors, List.findSome?_cons]
  cases (d.ofClass (.derived s c above)).getLast? <;> rfl

end

end Dispatcher

theorem ClassNode.any_inherits_root (s : Nat) (c : ClassDecl) (m : Option ClassNode) :
    m.any (root s c).inherits = Descriptor.sameNode m (some (root s c)) := by
  cases m with
  | none => rfl
  | some m => simp [Descriptor.sameNode, inherits, ancestors, same, Bool.beq_comm]

/-- A class inherits itself and what the class above inherits. -/
theorem ClassNode.any_inherits_derived (s : Nat) (c : ClassDecl) (above : ClassNode) (m : Option ClassNode) :
    m.any (derived s c above).inherits =
      (Descriptor.sameNode m (some (derived s c above)) || m.any above.inherits) := by
  cases m with
  | none => rfl
  | some m => simp [Descriptor.sameNode, inherits, ancestors, same, Bool.beq_comm]

namespace Registries

variable {r : Registries} {d : Dispatcher 1} (hr : r.Sound) (hfirst : d.BasesFirst)
variable (hd : ∀ f ∈ d.functions, ∃ m c, f.node? = some m ∧ r.classes.find? c = some m)
include hr hfirst hd

/-- A function for a class is never followed by one for a class above it. -/
theorem Sound.above_not_after {s : Nat} {l : Level} {p : ClassDecl} {above : ClassNode}
    (hn : r.classes.find? (.derived l p) = some (.derived s (.derived l p) above))
    (hp : r.classes.find? p = some above) :
    d.functions.Pairwise fun f g =>
      Descriptor.sameNode f.node? (some (.derived s (.derived l p) above)) = true →
        ¬ g.node?.any above.inherits = true := by
  refine List.Pairwise.imp_of_mem ?_ hfirst
  intro f g hf hg hfg hself habove
  obtain ⟨m, e, hfm, hm⟩ := hd f hf
  obtain ⟨k, e', hgk, hk⟩ := hd g hg
  rw [hfm] at hself
  rw [hgk] at habove
  have hmn := (hr.classes.same_iff hm hn).mp hself
  subst hmn
  have hinherits : (ClassNode.derived s (.derived l p) above).inherits k = true :=
    (Bool.or_eq_true _ _).mpr (.inr habove)
  have hsame := hfg _ k hfm hgk hinherits
  -- the class above would be derived from the class itself
  have hin : e' ∈ p.chain := (hr.classes.inherits_iff hp hk).mp habove
  have he' := hr.classes.eq_of_same hn hk hsame
  exact ClassDecl.derived_not_mem_chain l p (he' ▸ hin)

/-- With bases first, the nearest function on the chain of a class is the last of all that are for
    classes of the chain. -/
theorem Sound.inherited?_eq {c : ClassDecl} {n : ClassNode} (hn : r.classes.find? c = some n) :
    d.inherited? n = (d.functions.filter fun f => f.node?.any n.inherits).getLast? := by
  induction c generalizing n with
  | root l =>
    obtain ⟨s, rfl⟩ := hr.classes.linked hn
    simp only [d.inherited?_root, Dispatcher.ofClass, ClassNode.any_inherits_root]
  | derived l p ih =>
    obtain ⟨s, above, hp, rfl⟩ := hr.classes.linked hn
    simp only [d.inherited?_derived, Dispatcher.ofClass, ClassNode.any_inherits_derived, ih hp]
    rw [getLast?_filter_or (hr.above_not_after hfirst hd hn hp)]

end Registries

namespace Run

variable {w : World} {a b : Descriptor}

/-- Between classes the type test follows the links between the nodes. -/
theorem isConvertible_nodes (hw : w.registries.Sound) (ha : w.registries.Describes a) (hb : w.registries.Describes b)
    {n m : ClassNode} (hn : a.node = some n) (hm : b.node = some m) (c : Caller) (v : World) :
    isConvertible a b c v = some (n.inherits m, v) := by
  obtain ⟨ans, hrun, hans⟩ := isConvertible_class a b hn
  obtain ⟨k, hk⟩ := ha.cached hw hn
  obtain ⟨l, hl⟩ := hb.cached hw hm
  have haccepts : ans = true ↔ n.inherits m = true := by
    rw [hans, ← ha.accepts_iff hw hb hn, Registries.accepts_of_class hw hn hk hb ha, hw.classes.inherits_iff hk hl]
    constructor
    · intro h
      rcases h with rfl | ⟨m', hm', hin⟩
      · cases hm
      · cases hm.symm.trans hm'
        rw [hw.classes.decl hl] at hin; exact hin
    · intro hin
      exact .inr ⟨m, hm, by rw [hw.classes.decl hl]; exact hin⟩
  rw [hrun, Bool.eq_iff_iff.mpr haccepts]

/-- Tests that change nothing select what passes them. -/
theorem select_eq_filter {α : Type} {test : α → Run Bool} {passes : α → Bool} {c : Caller} {l : List α}
    (h : ∀ x ∈ l, test x c w = some (passes x, w)) : select test l c w = some (l.filter passes, w) := by
  induction l with
  | nil => rfl
  | cons x l ih =>
    have hrest := ih fun y hy => h y (List.mem_cons_of_mem _ hy)
    refine bind_eq_some.mpr ⟨passes x, w, h x (List.mem_cons_self ..), ?_⟩
    refine bind_eq_some.mpr ⟨l.filter passes, w, hrest, ?_⟩
    cases hx : passes x <;> simp [hx] <;> rfl

end Run

/-- A box that is described with a node is described as a registered number. -/
theorem World.Reached.describes_of_node {w : World} (hw : w.Reached) {b : Box} {n : ClassNode}
    (hn : (Step.describe b w).1.node = some n) :
    (Step.describe b w).2.registries.Describes (Step.describe b w).1 := by
  have hv := hw.leads (.describe w b)
  have hdesc := Step.describe_eq_descriptor hw.sound b
  cases hfind : (Step.describe b w).2.types.entries.find? (Step.describe b w).1.id with
  | none =>
    rw [hdesc, TypeTable.node_descriptor hfind] at hn
    cases hn
  | some e =>
    rw [hdesc]
    exact hv.describes ((Table.contains_iff _ _).mpr ⟨e, hfind⟩)

namespace Function.TakesClass

variable {f : Function 1} {w v : World} (hf : f.TakesClass w) (hv : w.Leads v)
include hf hv

/-- Its parameter is described with a node, then and later. -/
theorem described : ∃ p m, f.params = [p] ∧ p.node = some m ∧ v.registries.Describes p := by
  obtain ⟨p, hp, htaken, hclass⟩ := hf
  obtain ⟨m, hm⟩ := Option.isSome_iff_exists.mp hclass
  obtain ⟨hw, hdesc⟩ := htaken.describes
  exact ⟨p, m, hp, hm, hdesc.mono (World.Leads.grows hw hv)⟩

theorem cached (hsound : v.registries.Sound) : ∃ m c, f.node? = some m ∧ v.registries.classes.find? c = some m := by
  obtain ⟨p, m, hp, hm, hdesc⟩ := hf.described hv
  obtain ⟨c, hc⟩ := hdesc.cached hsound hm
  exact ⟨m, c, by simp [Function.node?, hp, hm], hc⟩

/-- It accepts what is described by a class that inherits its own. -/
theorem allConvertible (hsound : v.registries.Sound) {a : Descriptor} (ha : v.registries.Describes a) {n : ClassNode}
    (hn : a.node = some n) (c : Caller) :
    Run.allConvertible [a] f.params c v = some (f.node?.any n.inherits, v) := by
  obtain ⟨p, m, hp, hm, hdesc⟩ := hf.described hv
  have hone := Run.isConvertible_nodes hsound ha hdesc hn hm c v
  simp only [Function.node?, hp, List.head?_cons, Option.bind_some, hm, Option.any_some]
  refine Run.bind_eq_some.mpr ⟨_, _, hone, ?_⟩
  cases n.inherits m <;> rfl

end Function.TakesClass

namespace Dispatcher

/-- A "one" call is one of the last function that was found; that nothing was found is noted. -/
theorem CallsFound.one_getLast? {n : Nat} {c : Caller} {types : List Descriptor} {args : List Box}
    {found : List (Function n)} {u : World} {all : Option (List Box × World)} {one : Option (Box × World)}
    (h : CallsFound c types args found u all one) :
    one = match found.getLast? with
      | some f => f.call args c u
      | none => some (.null, u.note (.nothingSelected types)) := by
  cases hlast : found.getLast? with
  | none =>
    have hnil := List.getLast?_eq_none_iff.mp hlast
    rw [h.one_null hnil, hnil]; rfl
  | some f =>
    have hne : found.isEmpty = false := by
      cases found with
      | nil => cases hlast
      | cons g rest => rfl
    rw [h.one_eq f hlast]
    simp only [report, hne, Bool.false_eq_true, if_false]
    rfl

/-- Let the functions of a dispatcher take class pointers, bases first, and let a box be described
    by the node `n` of a class; for a live object, that is the object's own class. Then a call for
    the box is one of the last function for the nearest class on the chain that has a function,
    in the world after describing the box, and nothing is called where no class on the chain has
    one, however deep calls may nest and whatever is registered. -/
theorem callOne_inherited {w : World} (hw : w.Reached) (d : Dispatcher 1) (hd : ∀ f ∈ d.functions, f.TakesClass w)
    (hfirst : d.BasesFirst) (b : Box) {n : ClassNode} (hn : (Step.describe b w).1.node = some n) :
    (∀ id o, b = .object id (some o) → n.decl = o.cls) ∧
    ∀ depth, (d.callOneConvertible [b]).atDepth depth w =
      match d.inherited? n with
      | some f => (f.call [b]).atDepth depth (Step.describe b w).2
      | none => some (.null, (Step.describe b w).2.note (.nothingSelected [(Step.describe b w).1])) := by
  have hwv : w.Leads (Step.describe b w).2 := .describe w b
  have hv := (hw.leads hwv).sound
  have hself := hw.describes_of_node hn
  refine ⟨?_, fun depth => ?_⟩
  · intro id o hb
    subst hb
    obtain ⟨m, _, hm, -, -, hown⟩ := Step.describe_live hw.sound id o
    rw [hown] at hn
    cases hn
    exact hv.classes.decl hm
  · have hselect := Run.select_eq_filter fun f hf =>
      (hd f hf).allConvertible hwv hv hself hn (Script.run depth)
    have hcalls := (d.callsFound_convertible [b] (Script.run depth) w (Nat.le_refl 1)).1 _ _
      (select_eq_some_iff.mp hselect)
    obtain ⟨c, hc⟩ := hself.cached hv hn
    rw [hv.inherited?_eq hfirst (fun f hf => (hd f hf).cached hwv hv) hc]
    refine hcalls.one_getLast?.trans ?_
    cases (d.functions.filter fun f => f.node?.any n.inherits).getLast? <;> rfl

/-- Of the functions for animals and for dogs, where dogs are animals, a call for a dog that was boxed
    as an animal is one of the last for dogs, and a call for a null pointer to animals is one of that
    for animals. For a null pointer to rocks none is called. -/
theorem callOne_inherited_dog :
    let animal : ClassDecl := .root ⟨"Animal", 0, 1⟩
    let dog : ClassDecl := .derived ⟨"Dog", 0, 4⟩ animal
    let rock : ClassDecl := .root ⟨"Rock", 0, 5⟩
    let known := (Step.idOf (.pointer dog) (Step.idOf (.pointer animal) World.fresh).2).2
    let w := (Step.idOf (.pointer rock) known).2
    let takes (i : Nat) (name : String) : Function 1 :=
      ⟨some fun _ => .done (.plain (.text name)), [w.types.descriptor ⟨i⟩], .wild⟩
    let d : Dispatcher 1 := ⟨[takes 1024 "animal", takes 1025 "dog", takes 1025 "hound"]⟩
    let call (b : Box) := (d.callOneConvertible [b]).atDepth 0 w
    let alive : Box := .object ⟨1024⟩ (some ⟨0, Instance.initial dog⟩)
    let nowhere (i : Nat) : Box := .object ⟨i⟩ none
    call alive = ((takes 1025 "hound").call [alive]).atDepth 0 (Step.describe alive w).2 ∧
      call (nowhere 1024) = ((takes 1024 "animal").call [nowhere 1024]).atDepth 0 w ∧
      call (nowhere 1026) = some (.null, w.note (.nothingSelected [w.types.descriptor ⟨1026⟩])) := by
  intro animal dog rock known w takes d call alive nowhere
  have hw : w.Reached := ((World.Leads.idOf World.fresh _).trans (.idOf _ _)).trans (.idOf _ _)
  let animals : ClassNode := .root 0 animal
  let dogs : ClassNode := .derived 1 dog animals
  let rocks : ClassNode := .root 2 rock
  have hnodes : (w.types.descriptor ⟨1024⟩).node = some animals ∧ (w.types.descriptor ⟨1025⟩).node = some dogs ∧
      (w.types.descriptor ⟨1026⟩).node = some rocks := by
    simp only [w, known, World.fresh_eq]
    decide
  have halive : (Step.describe alive w).1.node = some dogs := by
    simp only [w, known, World.fresh_eq]
    decide
  obtain ⟨hanimal, hdog, hrock⟩ := hnodes
  have hnumbers : ∀ i ∈ [1024, 1025], w.types.entries.contains ⟨i⟩ = true := by
    simp only [w, known, World.fresh_eq]
    decide
  have hclass {i : Nat} (hi : i ∈ [1024, 1025]) (hnode : (w.types.descriptor ⟨i⟩).isClass = true) (name : String) :
      (takes i name).TakesClass w := ⟨_, rfl, .number hw (hnumbers i hi), hnode⟩
  have hd : ∀ f ∈ d.functions, f.TakesClass w := by
    intro f hf
    simp only [d, List.mem_cons, List.not_mem_nil, or_false] at hf
    rcases hf with rfl | rfl | rfl
    · exact hclass (by decide) (by simp [Descriptor.isClass, hanimal]) _
    · exact hclass (by decide) (by simp [Descriptor.isClass, hdog]) _
    · exact hclass (by decide) (by simp [Descriptor.isClass, hdog]) _
  have hbase (name : String) : (takes 1024 name).node? = some animals := hanimal
  have hderived (name : String) : (takes 1025 name).node? = some dogs := hdog
  clear_value w
  have hfirst : d.BasesFirst := by
    have hup : animals.inherits dogs = false := by decide
    simp [BasesFirst, d, hbase, hderived, hup]
  have hinherited : d.inherited? dogs = some (takes 1025 "hound") ∧ d.inherited? animals = some (takes 1024 "animal") ∧
      d.inherited? rocks = none := by
    simp [inherited?, ofClass, d, hbase, hderived, dogs, animals, rocks, ClassNode.ancestors, Descriptor.sameNode,
      ClassNode.same, ClassNode.serial]
  obtain ⟨hhound, hplain, hnone⟩ := hinherited
  refine ⟨?_, ?_, ?_⟩
  · have h := (callOne_inherited hw d hd hfirst alive halive).2 0
    rw [hhound] at h; exact h
  · have h := (callOne_inherited hw d hd hfirst (nowhere 1024) hanimal).2 0
    rw [hplain] at h; exact h
  · have h := (callOne_inherited hw d hd hfirst (nowhere 1026) hrock).2 0
    rw [hnone] at h; exact h

end Dispatcher

end Multimethod
