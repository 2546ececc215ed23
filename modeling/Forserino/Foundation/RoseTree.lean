import Mathlib.Data.List.Flatten
import Mathlib.Data.List.Induction
import Mathlib.Data.List.Perm.Basic

/-! Trees with any number of children, the surroundings of one of their nodes, and
replacing that node while everything around it stays.
-/

set_option autoImplicit false

namespace Forserino.Foundation

universe u v w

inductive RoseTree (α : Type u) where
  | node (value : α) (children : List (RoseTree α))
  deriving Repr

namespace RoseTree

variable {α : Type u} {β : Type v} {κ : Type w}

def value : RoseTree α → α
  | node v _ => v

def children : RoseTree α → List (RoseTree α)
  | node _ cs => cs

@[simp] theorem value_node (v : α) (cs : List (RoseTree α)) : (node v cs).value = v := rfl
@[simp] theorem children_node (v : α) (cs : List (RoseTree α)) : (node v cs).children = cs := rfl
@[simp] theorem eta (t : RoseTree α) : node t.value t.children = t := by cases t; rfl

mutual
/-- The values of the tree, a node before its children. -/
def values : RoseTree α → List α
  | node v cs => v :: valuesIn cs

def valuesIn : List (RoseTree α) → List α
  | [] => []
  | t :: ts => t.values ++ valuesIn ts
end

mutual
/-- The first node, in the order of `values`, whose value has the property. -/
def find? (p : α → Bool) : RoseTree α → Option (RoseTree α)
  | node v cs => if p v then some (node v cs) else findIn? p cs

def findIn? (p : α → Bool) : List (RoseTree α) → Option (RoseTree α)
  | [] => none
  | t :: ts =>
    match t.find? p with
    | some found => some found
    | none => findIn? p ts
end

mutual
/-- Put a tree in the place of every topmost node whose value has the property. -/
def replace (p : α → Bool) : RoseTree α → RoseTree α → RoseTree α
  | node v cs, new => if p v then new else node v (replaceIn p cs new)

def replaceIn (p : α → Bool) : List (RoseTree α) → RoseTree α → List (RoseTree α)
  | [], _ => []
  | t :: ts, new => t.replace p new :: replaceIn p ts new
end

mutual
def map (f : α → β) : RoseTree α → RoseTree β
  | node v cs => node (f v) (mapIn f cs)

def mapIn (f : α → β) : List (RoseTree α) → List (RoseTree β)
  | [] => []
  | t :: ts => t.map f :: mapIn f ts
end

theorem valuesIn_eq (ts : List (RoseTree α)) : valuesIn ts = ts.flatMap values := by
  induction ts with
  | nil => rfl
  | cons t ts ih => rw [valuesIn, ih, List.flatMap_cons]

theorem findIn?_eq (p : α → Bool) (ts : List (RoseTree α)) : findIn? p ts = ts.findSome? (find? p) := by
  induction ts with
  | nil => rfl
  | cons t ts ih =>
    rw [findIn?, List.findSome?_cons, ih]
    cases t.find? p <;> rfl

theorem replaceIn_eq (p : α → Bool) (ts : List (RoseTree α)) (new : RoseTree α) :
    replaceIn p ts new = ts.map (replace p · new) := by
  induction ts with
  | nil => rfl
  | cons t ts ih => rw [replaceIn, ih, List.map_cons]

theorem mapIn_eq (f : α → β) (ts : List (RoseTree α)) : mapIn f ts = ts.map (map f) := by
  induction ts with
  | nil => rfl
  | cons t ts ih => rw [mapIn, ih, List.map_cons]

@[simp] theorem values_node (v : α) (cs : List (RoseTree α)) : (node v cs).values = v :: cs.flatMap values := by
  rw [values, valuesIn_eq]

theorem find?_node (p : α → Bool) (v : α) (cs : List (RoseTree α)) :
    (node v cs).find? p = if p v then some (node v cs) else cs.findSome? (find? p) := by
  rw [find?, findIn?_eq]

theorem replace_node (p : α → Bool) (v : α) (cs : List (RoseTree α)) (new : RoseTree α) :
    (node v cs).replace p new = if p v then new else node v (cs.map (replace p · new)) := by
  rw [replace, replaceIn_eq]

@[simp] theorem map_node (f : α → β) (v : α) (cs : List (RoseTree α)) :
    (node v cs).map f = node (f v) (cs.map (map f)) := by
  rw [map, mapIn_eq]

/-- What holds of a node whenever it holds of its children holds of every tree. -/
@[induction_eliminator]
theorem induct {motive : RoseTree α → Prop}
    (node : ∀ v cs, (∀ t ∈ cs, motive t) → motive (node v cs)) (t : RoseTree α) : motive t := by
  refine RoseTree.rec (motive_1 := motive) (motive_2 := fun ts => ∀ t ∈ ts, motive t) node ?_ ?_ t
  · intro t inside
    cases inside
  · intro t ts first rest other inside
    rcases List.mem_cons.mp inside with rfl | inside
    · exact first
    · exact rest other inside

theorem value_mem_values (t : RoseTree α) : t.value ∈ t.values := by
  cases t
  simp

theorem find?_eq_none {p : α → Bool} {t : RoseTree α} : t.find? p = none ↔ ∀ v ∈ t.values, p v = false := by
  induction t with
  | node v cs ih =>
    rw [find?_node]
    cases here : p v with
    | true => simp [here]
    | false =>
      simp only [Bool.false_eq_true, if_false, List.findSome?_eq_none_iff, values_node, List.forall_mem_cons, here,
        true_and, List.forall_mem_flatMap]
      exact forall₂_congr ih

theorem find?_isSome {p : α → Bool} {t : RoseTree α} {v : α} (inside : v ∈ t.values) (holds : p v = true) :
    ∃ found, t.find? p = some found := by
  apply Option.ne_none_iff_exists'.mp
  intro absent
  rw [find?_eq_none.mp absent v inside] at holds
  exact Bool.false_ne_true holds

theorem replace_eq_self {p : α → Bool} {new t : RoseTree α} (absent : ∀ v ∈ t.values, p v = false) :
    t.replace p new = t := by
  induction t with
  | node v cs ih =>
    simp only [values_node, List.mem_cons, List.mem_flatMap] at absent
    rw [replace_node, if_neg (by rw [absent v (.inl rfl)]; exact Bool.false_ne_true)]
    congr 1
    have same : cs.map (replace p · new) = cs.map id :=
      List.map_congr_left fun c inside => ih c inside fun x below => absent x (.inr ⟨c, inside, below⟩)
    rw [same, List.map_id]

theorem values_map (f : α → β) (t : RoseTree α) : (t.map f).values = t.values.map f := by
  induction t with
  | node v cs ih =>
    simp only [map_node, values_node, List.map_cons, List.map_flatMap, List.flatMap_map]
    congr 1
    apply List.flatMap_congr
    intro c inside
    exact ih c inside

/-- A node with one of its children taken out. -/
structure Frame (α : Type u) where
  value : α
  front : List (RoseTree α)
  back : List (RoseTree α)

def Frame.fill (frame : Frame α) (t : RoseTree α) : RoseTree α := node frame.value (frame.front ++ t :: frame.back)

/-- Put the tree in its surroundings; the first frame is that of its parent. -/
def plug (surroundings : List (Frame α)) (t : RoseTree α) : RoseTree α :=
  surroundings.foldl (fun inner frame => frame.fill inner) t

@[simp] theorem plug_nil (t : RoseTree α) : plug [] t = t := rfl

@[simp] theorem plug_cons (frame : Frame α) (surroundings : List (Frame α)) (t : RoseTree α) :
    plug (frame :: surroundings) t = plug surroundings (frame.fill t) := rfl

theorem plug_concat (surroundings : List (Frame α)) (frame : Frame α) (t : RoseTree α) :
    plug (surroundings ++ [frame]) t = frame.fill (plug surroundings t) := by
  rw [plug, List.foldl_append]
  rfl

/-- The values around the hole. -/
def outerValues (surroundings : List (Frame α)) : List α :=
  surroundings.flatMap fun frame => frame.value :: (frame.front.flatMap values ++ frame.back.flatMap values)

theorem values_fill (frame : Frame α) (t : RoseTree α) : (frame.fill t).values.Perm
    (t.values ++ frame.value :: (frame.front.flatMap values ++ frame.back.flatMap values)) := by
  rw [Frame.fill, values_node, List.flatMap_append, List.flatMap_cons]
  exact ((List.perm_append_comm_assoc _ _ _).cons _).trans List.perm_middle.symm

theorem values_plug (surroundings : List (Frame α)) (t : RoseTree α) :
    (plug surroundings t).values.Perm (t.values ++ outerValues surroundings) := by
  induction surroundings generalizing t with
  | nil => simp [outerValues]
  | cons frame surroundings ih =>
    rw [plug_cons, outerValues, List.flatMap_cons, ← List.append_assoc]
    exact (ih (frame.fill t)).trans ((values_fill frame t).append_right _)

/-- A node that is found is the tree in some surroundings. -/
theorem find?_eq_some {p : α → Bool} {t found : RoseTree α} (finds : t.find? p = some found) :
    p found.value = true ∧ ∃ surroundings, t = plug surroundings found := by
  induction t with
  | node v cs ih =>
    rw [find?_node] at finds
    split at finds
    next here =>
      cases finds
      exact ⟨here, [], rfl⟩
    next elsewhere =>
      obtain ⟨front, c, back, rfl, below, _⟩ := List.findSome?_eq_some_iff.mp finds
      obtain ⟨holds, surroundings, rfl⟩ := ih c (by simp) below
      exact ⟨holds, surroundings ++ [⟨v, front, back⟩], by rw [plug_concat]; rfl⟩

/-- If no other value has the property, the node in its surroundings is found there, and
replacing it leaves them as they are. -/
theorem find?_plug {p : α → Bool} {surroundings : List (Frame α)} {t : RoseTree α} (holds : p t.value = true)
    (outside : ∀ v ∈ outerValues surroundings, p v = false) : (plug surroundings t).find? p = some t := by
  induction surroundings using List.reverseRecOn with
  | nil =>
    cases t with
    | node v cs => exact (find?_node p v cs).trans (if_pos holds)
  | append_singleton surroundings frame ih =>
    simp only [outerValues, List.flatMap_append, List.mem_append, List.flatMap_cons, List.flatMap_nil,
      List.append_nil, List.mem_cons] at outside ih
    rw [plug_concat, Frame.fill, find?_node, if_neg (by simp [outside frame.value (.inr (.inl rfl))]),
      List.findSome?_append, List.findSome?_eq_none_iff.mpr, Option.none_or, List.findSome?_cons,
      ih fun v inside => outside v (.inl inside)]
    intro c inside
    exact find?_eq_none.mpr fun v below => outside v (.inr (.inr (.inl (List.mem_flatMap.mpr ⟨c, inside, below⟩))))

theorem replace_plug {p : α → Bool} {surroundings : List (Frame α)} {t new : RoseTree α} (holds : p t.value = true)
    (outside : ∀ v ∈ outerValues surroundings, p v = false) :
    (plug surroundings t).replace p new = plug surroundings new := by
  induction surroundings using List.reverseRecOn with
  | nil =>
    cases t with
    | node v cs => exact (replace_node p v cs new).trans (if_pos holds)
  | append_singleton surroundings frame ih =>
    simp only [outerValues, List.flatMap_append, List.mem_append, List.flatMap_cons, List.flatMap_nil,
      List.append_nil, List.mem_cons] at outside ih
    have untouched : ∀ cs : List (RoseTree α), (∀ v ∈ cs.flatMap values, p v = false) →
        cs.map (replace p · new) = cs := by
      intro cs absent
      have same : cs.map (replace p · new) = cs.map id :=
        List.map_congr_left fun c inside =>
          replace_eq_self fun v below => absent v (List.mem_flatMap.mpr ⟨c, inside, below⟩)
      rw [same, List.map_id]
    rw [plug_concat, Frame.fill, replace_node, if_neg (by simp [outside frame.value (.inr (.inl rfl))]),
      List.map_append, List.map_cons, ih fun v inside => outside v (.inl inside),
      untouched frame.front fun v inside => outside v (.inr (.inr (.inl inside))),
      untouched frame.back fun v inside => outside v (.inr (.inr (.inr inside))), plug_concat, Frame.fill]

def Frame.map (f : α → β) (frame : Frame α) : Frame β :=
  ⟨f frame.value, frame.front.map (RoseTree.map f), frame.back.map (RoseTree.map f)⟩

theorem map_plug (f : α → β) (surroundings : List (Frame α)) (t : RoseTree α) :
    (plug surroundings t).map f = plug (surroundings.map (Frame.map f)) (t.map f) := by
  induction surroundings generalizing t with
  | nil => rfl
  | cons frame surroundings ih =>
    rw [plug_cons, ih, List.map_cons, plug_cons]
    simp [Frame.fill, Frame.map]

/-- A place in the image of a tree is the image of a place in it. -/
theorem exists_plug_of_map {f : α → β} {x : RoseTree α} {surroundings : List (Frame β)} {t : RoseTree β}
    (same : x.map f = plug surroundings t) :
    ∃ surroundings' t', x = plug surroundings' t' ∧ surroundings'.map (Frame.map f) = surroundings ∧ t'.map f = t := by
  induction surroundings generalizing t with
  | nil => exact ⟨[], x, rfl, rfl, same⟩
  | cons frame surroundings ih =>
    obtain ⟨outer, inner, rfl, rfl, filled⟩ := ih same
    cases inner with
    | node v cs =>
      simp only [map_node, Frame.fill, RoseTree.node.injEq] at filled
      obtain ⟨front, behind, rfl, fronts, rest⟩ := List.map_eq_append_iff.mp filled.2
      obtain ⟨t', back, rfl, image, backs⟩ := List.map_eq_cons_iff.mp rest
      refine ⟨⟨v, front, back⟩ :: outer, t', rfl, ?_, image⟩
      rw [List.map_cons, Frame.map, filled.1, fronts, backs]

/-- A condition on every node that sees the key of the node above it, its value and how many
children it has. -/
inductive Everywhere (key : α → κ) (condition : Option κ → α → Nat → Prop) : Option κ → RoseTree α → Prop where
  | node {above : Option κ} {v : α} {cs : List (RoseTree α)} (here : condition above v cs.length)
      (below : ∀ c ∈ cs, Everywhere key condition (some (key v)) c) : Everywhere key condition above (node v cs)

/-- The key of the node above the hole. -/
def keyAbove (key : α → κ) (above : Option κ) : List (Frame α) → Option κ
  | [] => above
  | frame :: _ => some (key frame.value)

variable {key : α → κ} {condition : Option κ → α → Nat → Prop} {above : Option κ}

theorem everywhere_node {v : α} {cs : List (RoseTree α)} : Everywhere key condition above (node v cs) ↔
    condition above v cs.length ∧ ∀ c ∈ cs, Everywhere key condition (some (key v)) c := by
  constructor
  · rintro ⟨here, below⟩
    exact ⟨here, below⟩
  · rintro ⟨here, below⟩
    exact .node here below

theorem Everywhere.here {t : RoseTree α} (everywhere : Everywhere key condition above t) :
    condition above t.value t.children.length := by
  cases everywhere with
  | node here _ => exact here

theorem everywhere_fill {frame : Frame α} {t : RoseTree α} : Everywhere key condition above (frame.fill t) ↔
    condition above frame.value (frame.front.length + frame.back.length + 1) ∧
      (∀ c ∈ frame.front ++ frame.back, Everywhere key condition (some (key frame.value)) c) ∧
      Everywhere key condition (some (key frame.value)) t := by
  rw [Frame.fill, everywhere_node]
  apply and_congr
  · rw [List.length_append, List.length_cons, ← Nat.add_assoc]
  · simp only [List.mem_append, List.mem_cons]
    grind

theorem Everywhere.unplug {surroundings : List (Frame α)} {t : RoseTree α}
    (everywhere : Everywhere key condition above (plug surroundings t)) :
    Everywhere key condition (keyAbove key above surroundings) t := by
  induction surroundings generalizing t with
  | nil => exact everywhere
  | cons frame surroundings ih => exact (everywhere_fill.mp (ih everywhere)).2.2

theorem Everywhere.replug {surroundings : List (Frame α)} {t new : RoseTree α}
    (everywhere : Everywhere key condition above (plug surroundings t))
    (inner : Everywhere key condition (keyAbove key above surroundings) new) :
    Everywhere key condition above (plug surroundings new) := by
  induction surroundings generalizing t new with
  | nil => exact inner
  | cons frame surroundings ih =>
    rw [plug_cons] at everywhere
    apply ih everywhere
    obtain ⟨here, beside, _⟩ := everywhere_fill.mp everywhere.unplug
    exact everywhere_fill.mpr ⟨here, beside, inner⟩

/-- The condition does not see a change of values that keeps keys. -/
theorem everywhere_map {f : α → α} (keeps : ∀ v, key (f v) = key v)
    (same : ∀ above v n, condition above (f v) n ↔ condition above v n) {t : RoseTree α} :
    Everywhere key condition above (t.map f) ↔ Everywhere key condition above t := by
  induction t generalizing above with
  | node v cs ih =>
    rw [map_node, everywhere_node, everywhere_node, same, List.length_map, keeps]
    apply and_congr_right'
    simp only [List.forall_mem_map]
    exact forall₂_congr fun c inside => ih c inside

end RoseTree

end Forserino.Foundation
