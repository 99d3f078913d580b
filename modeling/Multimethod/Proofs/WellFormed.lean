/-
  Multimethod.Proofs.WellFormed — every box that a program can get hold of is well formed.

  `Box.WellFormed` says of a box in a world what its reader relies on. An honest program,
  which has all boxes and pointers from operations and so does the behaviour it registers,
  never holds another box, whatever aliases, converters, makers, factories and functions
  there are.
-/
import Multimethod.Proofs.Runs

namespace Multimethod

open Registries (Grows Course)

/-- The box is null; or a content, under exactly the number that its type has, never a
    further number of the type, the wildcard's or that of `void`, and all boxes in it are well
    formed; or a pointer, under a registered number of a class pointer type, whose object, if
    there is one, is of a class that inherits the class of the number. -/
inductive Box.WellFormed (w : World) : Box → Prop
  | null : WellFormed w .null
  | plain {id : TypeId} {c : Content} (hid : Step.idOf c.ty w = (id, w))
      (hleast : w.types.First (fun e => e.ty = c.ty) id) (hwild : id ≠ TypeId.wild) (hvoid : id ≠ ⟨1⟩)
      (hin : ∀ b ∈ c.boxes, WellFormed w b) : WellFormed w (.plain id c)
  | object {id : TypeId} {e : Entry} {k : ClassDecl} {n : ClassNode} {target : Option Object}
      (he : w.types.entries.find? id = some e) (hk : e.ty = .pointer k) (hn : e.node = some n)
      (hlive : ∀ o, target = some o → (Step.node o.cls w).1.inherits n = true) : WellFormed w (.object id target)

/-- Under sound registries a class inherits those of its chain. -/
theorem Step.inherits_of_mem_chain {w : World} (hw : w.registries.Sound) {c k : ClassDecl} {n : ClassNode}
    (hn : w.registries.classes.find? k = some n) (hk : k ∈ c.chain) : (node c w).1.inherits n = true := by
  have hquiet := isQuiet_node c w hw
  have hn' := (Course.grows hw hquiet).node hn
  exact ((Course.sound hw hquiet).classes.inherits_iff (find?_node c w) hn').mpr hk

/-- A box whose number fits is well formed. -/
theorem Box.Fits.wellFormed {w : World} (hw : w.Reached) {b : Box} (h : b.Fits w.registries) : b.WellFormed w := by
  have hsound := hw.sound
  induction h with
  | null => exact .null
  | @plain id c hid _ ih =>
    obtain ⟨e, he, hty⟩ := hsound.entry_of_byType hid
    refine .plain (Step.idOf_of_bound hid) (hsound.first hid) (hsound.ne_wild he) (fun hvoid => ?_) ih
    subst hvoid
    have hv : e.ty = .void := congrArg Prod.fst (hw.builtin (p := (.void, none)) (by rw [World.fresh_eq]; decide) he)
    cases c <;> cases hty.symm.trans hv
  | @object id e k target he hk hlive =>
    obtain ⟨n, hn, hen⟩ := hsound.node_of_pointer he hk
    exact .object he hk hen fun o ho => Step.inherits_of_mem_chain hsound hn (hlive o ho).1

/-- At any point of the run of an honest program, every box that it can get hold of is well
    formed in the world as it is then. -/
theorem Session.Leads.box_wellFormed {D : Discipline} (hD : D.honest) {s : Session} (h : Session.start.Leads D s)
    {b : Box} (hb : Value.From s.held (.any b)) : b.WellFormed s.world := by
  have hfits := D.fits_from h.good.2 (fun _ => hb) hD
  exact Box.Fits.wellFormed h.world hfits

/-- A new dog, held as an animal and put into a box: it has the number of animal pointers. -/
theorem Session.Leads.box_wellFormed_upcast :
    let animal : ClassDecl := .root ⟨"Animal", 0, 4⟩
    let dog := Instance.initial (.derived ⟨"Dog", 0, 40⟩ animal)
    ∃ s, Session.start.Leads ⟨True, False⟩ s ∧
      Box.WellFormed s.world (.object ⟨TypeId.firstUser⟩ (some ⟨0, dog⟩)) := by
  intro animal dog
  let made : Handle := ⟨dog.cls, some ⟨0, dog⟩⟩
  have hpointer : (Step.cast made animal World.fresh).1 = ⟨animal, some ⟨0, dog⟩⟩ := by
    rw [World.fresh_eq]; decide
  have hid : (Step.typeId (.pointer animal) (Step.cast made animal World.fresh).2).1 = ⟨TypeId.firstUser⟩ := by
    rw [World.fresh_eq]; decide
  have hcast := (Session.Leads.refl (D := ⟨True, False⟩) (s := Session.start)).act (.cast made animal)
    (fun _ v hv => by cases List.mem_singleton.mp hv; exact .object ⟨0, dog⟩) rfl
  have hbox := hcast.act (.box (.pointer (Step.cast made animal World.fresh).1))
    (fun _ v hv => by cases List.mem_singleton.mp hv; exact .held (List.mem_cons_self ..)) rfl
  refine ⟨_, hbox, Session.Leads.box_wellFormed trivial hbox (.held ?_)⟩
  have hreply : (Step.box (.pointer (Step.cast made animal World.fresh).1) (Step.cast made animal World.fresh).2).1 =
      .object ⟨TypeId.firstUser⟩ (some ⟨0, dog⟩) := by
    simp only [Step.box_pointer, hpointer, hid]
  rw [← hreply]
  exact List.mem_cons_self ..

end Multimethod
