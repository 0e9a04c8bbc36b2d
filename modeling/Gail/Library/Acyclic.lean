import Mathlib.Data.Set.Finite.List

/-! Relations without cycles, and lists of items of which each waits for what it needs or, if it needs nothing, for
the item before it. -/
namespace Gail.Library
open Relation
variable {α : Type*}

def Acyclic (r : α → α → Prop) : Prop := ∀ a, ¬TransGen r a a

section Finite
variable {r : α → α → Prop} {items : List α}

theorem acyclic_of_wellFounded (h : WellFounded r) : Acyclic r := by
  intro a hcycle
  exact h.transGen.irrefl.irrefl a hcycle

theorem wellFounded_of_acyclic (hitems : ∀ a b, r a b → a ∈ items) (h : Acyclic r) : WellFounded r := by
  have hfinite : Finite {a // a ∈ items} := List.finite_toSet items
  let path (a b : {a // a ∈ items}) : Prop := TransGen r a.1 b.1
  have htrans : IsTrans _ path := ⟨fun _ _ _ => TransGen.trans⟩
  have hirrefl : Std.Irrefl path := ⟨fun a => h a.1⟩
  have hpaths := Finite.wellFounded_of_trans_of_irrefl path
  have hitem (item : {a // a ∈ items}) : Acc r item.1 := by
    induction item using hpaths.induction with
    | _ item ih => exact ⟨_, fun a ha => ih ⟨a, hitems a _ ha⟩ (.single ha)⟩
  exact ⟨fun b => ⟨b, fun a ha => hitem ⟨a, hitems a b ha⟩⟩⟩

theorem acyclic_of_edges {sources targets : α → Prop} (hedges : ∀ a b, r a b → sources a ∧ targets b)
    (h : ∀ a, sources a → ¬targets a) : Acyclic r := by
  intro a hcycle
  obtain ⟨b, hfirst, -⟩ := TransGen.head'_iff.mp hcycle
  obtain ⟨c, -, hlast⟩ := TransGen.tail'_iff.mp hcycle
  exact h a (hedges a b hfirst).1 (hedges c a hlast).2

end Finite

section Chained
variable {items : List α} {needs : α → α → Prop}

/-- The second item comes right after the first. -/
def Precedes (items : List α) (a b : α) : Prop := ∃ before after, items = before ++ a :: b :: after

/-- The item needs nothing. -/
def Free (needs : α → α → Prop) (b : α) : Prop := ∀ a, ¬needs a b

/-- The second item waits for the first. -/
def Waits (items : List α) (needs : α → α → Prop) (a b : α) : Prop :=
  b ∈ items ∧ (needs a b ∨ Free needs b ∧ Precedes items a b)

/-- Of the items before an item that needs nothing, the last one that needs something. -/
def Anchors (items : List α) (needs : α → α → Prop) (a b : α) : Prop :=
  ∃ before middle after, items = before ++ a :: (middle ++ b :: after) ∧ ¬Free needs a ∧
    (∀ item ∈ middle, Free needs item) ∧ Free needs b

/-- From an item to what it needs, until nothing is needed, and back in the list to an item that needs something. -/
def LeadsBack (items : List α) (needs : α → α → Prop) (a b : α) : Prop :=
  ∃ root, Anchors items needs a root ∧ TransGen needs root b

theorem precedes_cons_iff {first a b : α} :
    Precedes (first :: items) a b ↔ first = a ∧ items.head? = some b ∨ Precedes items a b := by
  constructor
  · rintro ⟨before, after, h⟩
    cases before with
    | nil =>
      obtain ⟨rfl, rfl⟩ := List.cons.inj h
      exact .inl ⟨rfl, rfl⟩
    | cons item before => exact .inr ⟨before, after, (List.cons.inj h).2⟩
  · rintro (⟨rfl, hb⟩ | ⟨before, after, rfl⟩)
    · obtain ⟨after, rfl⟩ := List.head?_eq_some_iff.mp hb
      exact ⟨[], after, rfl⟩
    · exact ⟨first :: before, after, rfl⟩

theorem Precedes.mem {a b : α} (h : Precedes items a b) : a ∈ items ∧ b ∈ items := by
  obtain ⟨before, after, rfl⟩ := h
  simp

/-- A list without duplicates is split at an item in one way only. -/
theorem split_unique (hnodup : items.Nodup) {b : α} {before after front rest : List α}
    (h : items = before ++ b :: after) (h' : items = front ++ b :: rest) : before = front ∧ after = rest := by
  rw [h] at hnodup
  obtain ⟨hb, -⟩ := List.nodup_cons.mp (List.nodup_middle.mp hnodup)
  have hbefore : b ∉ before := fun hm => hb (List.mem_append_left _ hm)
  have hafter : b ∉ after := fun hm => hb (List.mem_append_right _ hm)
  obtain ⟨hfront, -, hrest⟩ := (List.append_cons_inj_of_notMem hbefore hafter).mp (h.symm.trans h')
  exact ⟨hfront, hrest⟩

theorem Anchors.transGen {a b : α} (h : Anchors items needs a b) : TransGen (Waits items needs) a b := by
  obtain ⟨before, middle, after, hitems, -, hmiddle, hb⟩ := h
  induction middle generalizing before a with
  | nil => exact .single ⟨by simp [hitems], .inr ⟨hb, before, after, hitems⟩⟩
  | cons item middle ih =>
    obtain ⟨hitem, hmiddle⟩ := List.forall_mem_cons.mp hmiddle
    have hfirst : Waits items needs a item :=
      ⟨by simp [hitems], .inr ⟨hitem, before, middle ++ b :: after, hitems⟩⟩
    exact .head hfirst (ih (before ++ [a]) (by simp [hitems]) hmiddle)

theorem LeadsBack.transGen (hneeds : ∀ a b, needs a b → a ∈ items ∧ b ∈ items) {a b : α}
    (h : LeadsBack items needs a b) : TransGen (Waits items needs) a b := by
  obtain ⟨root, hanchors, hpath⟩ := h
  exact hanchors.transGen.trans (TransGen.mono (fun a b hab => ⟨(hneeds a b hab).2, .inl hab⟩) _ _ hpath)

/-- An item that needs nothing can only be blocked by the last one before it that needs something. -/
theorem Free.acc (hnodup : items.Nodup) {b : α} (hb : Free needs b)
    (h : ∀ a, Anchors items needs a b → Acc (Waits items needs) a) : Acc (Waits items needs) b := by
  by_cases hmem : b ∈ items
  · obtain ⟨before, after, hitems⟩ := List.append_of_mem hmem
    induction before using List.reverseRecOn generalizing b after with
    | nil =>
      refine ⟨b, fun a ha => ?_⟩
      obtain ⟨front, rest, hfront⟩ := (ha.2.resolve_left (hb a)).2
      rw [List.append_cons] at hfront
      obtain ⟨hnil, -⟩ := split_unique hnodup hitems hfront
      exact absurd hnil (by simp)
    | append_singleton before last ih =>
      rw [List.append_assoc] at hitems
      change items = before ++ last :: b :: after at hitems
      have hlast : Acc (Waits items needs) last := by
        by_cases hfree : Free needs last
        · refine ih hfree ?_ (by simp [hitems]) (b :: after) hitems
          rintro anchor ⟨start, middle, rest, hanchor, hneedy, hmiddle, -⟩
          rw [List.append_cons, ← List.append_assoc] at hanchor
          obtain ⟨rfl, rfl⟩ := split_unique hnodup hitems hanchor
          refine h anchor ⟨start, middle ++ [last], after, by simp [hitems], hneedy, ?_, hb⟩
          intro item hitem
          rcases List.mem_append.mp hitem with hitem | hitem
          · exact hmiddle item hitem
          · rwa [List.mem_singleton.mp hitem]
        · exact h last ⟨before, [], after, hitems, hfree, fun item hitem => (by cases hitem), hb⟩
      refine ⟨b, fun a ha => ?_⟩
      obtain ⟨front, rest, hfront⟩ := (ha.2.resolve_left (hb a)).2
      rw [List.append_cons] at hfront hitems
      obtain ⟨hsame, -⟩ := split_unique hnodup hitems hfront
      obtain ⟨-, hsame⟩ := List.append_inj' hsame rfl
      rwa [← List.singleton_inj.mp hsame]
  · exact ⟨b, fun a ha => absurd ha.1 hmem⟩

/-- The list is worked through unless it leads from an item back to itself. -/
theorem acyclic_waits_iff (hnodup : items.Nodup) (hneeds : ∀ a b, needs a b → a ∈ items ∧ b ∈ items)
    (hacyclic : Acyclic needs) : Acyclic (Waits items needs) ↔ Acyclic (LeadsBack items needs) := by
  constructor
  · intro h a hcycle
    exact h a (TransGen.closed (fun a b hab => LeadsBack.transGen hneeds hab) _ _ hcycle)
  · intro h
    have hitems : ∀ a b, LeadsBack items needs a b → a ∈ items := by
      rintro a b ⟨root, ⟨before, middle, after, hitems, -⟩, -⟩
      simp [hitems]
    have hback := wellFounded_of_acyclic hitems h
    have hneeded := wellFounded_of_acyclic (fun a b hab => (hneeds a b hab).1) hacyclic
    -- By the items that an item leads back to, and then by those that it needs.
    have hneedy (b : α) (hb : ¬Free needs b) : Acc (Waits items needs) b := by
      induction b using hback.induction with
      | _ b ihback =>
        have hpath (c : α) (hc : c = b ∨ TransGen needs c b) : Acc (Waits items needs) c := by
          induction c using hneeded.induction with
          | _ c ih =>
            by_cases hfree : Free needs c
            · refine hfree.acc hnodup fun a ha => ?_
              have hroot := hc.resolve_left fun hcb => hb (hcb ▸ hfree)
              obtain ⟨_, _, _, _, hneedy, _⟩ := id ha
              exact ihback a ⟨c, ha, hroot⟩ hneedy
            · refine ⟨c, fun a ha => ?_⟩
              have hac := ha.2.resolve_right fun hnone => hfree hnone.1
              refine ih a hac (.inr ?_)
              rcases hc with rfl | hc
              · exact .single hac
              · exact .head hac hc
        exact hpath b (.inl rfl)
    refine acyclic_of_wellFounded ⟨fun b => ?_⟩
    by_cases hfree : Free needs b
    · refine hfree.acc hnodup fun a ha => ?_
      obtain ⟨_, _, _, _, hnotFree, _⟩ := id ha
      exact hneedy a hnotFree
    · exact hneedy b hfree

end Chained

end Gail.Library
