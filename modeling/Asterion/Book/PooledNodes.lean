import Asterion.Book.PooledOrderBook

/-! The order nodes of the pooled book: writing links changes no order, a queue gains and loses nodes as
a doubly linked list does, and the nodes that hold no order are the free list. -/
namespace Asterion.PooledOrderBook

open Lib.LinkedPath

def nextOf (nodes : List OrderNode) (nodeIndex : Nat) : Option Nat := (nodeAt nodes nodeIndex).next

def previousOf (nodes : List OrderNode) (nodeIndex : Nat) : Option Nat :=
  (nodeAt nodes nodeIndex).previous

variable {nodes nodes' nodes'' : List OrderNode} {i j : Nat} {link : Option Nat} {level : LevelNode}
  {xs front back cells : List Nat}

theorem lt_of_active (active : (nodeAt nodes i).active = true) : i < nodes.length := by
  by_contra out
  rw [nodeAt, List.getD_eq_default _ _ (Nat.le_of_not_lt out)] at active
  cases active

theorem nodeAt_modify (f : OrderNode → OrderNode) (within : i < nodes.length) :
    nodeAt (nodes.modify i f) j = if j = i then f (nodeAt nodes i) else nodeAt nodes j := by
  by_cases same : j = i
  · simp [nodeAt, List.getD_eq_getElem?_getD, same, within]
  · simp [nodeAt, List.getD_eq_getElem?_getD, same, Ne.symm same]

/-- Links have been written, and nothing else. -/
structure Relinked (nodes nodes' : List OrderNode) : Prop where
  length : nodes'.length = nodes.length
  order : ∀ i, (nodeAt nodes' i).order = (nodeAt nodes i).order
  active : ∀ i, (nodeAt nodes' i).active = (nodeAt nodes i).active

theorem Relinked.refl (nodes : List OrderNode) : Relinked nodes nodes :=
  ⟨rfl, fun _ => rfl, fun _ => rfl⟩

theorem Relinked.trans (first : Relinked nodes nodes') (second : Relinked nodes' nodes'') :
    Relinked nodes nodes'' :=
  ⟨second.length.trans first.length, fun i => (second.order i).trans (first.order i),
    fun i => (second.active i).trans (first.active i)⟩

section Links
variable (within : i < nodes.length)
include within

theorem setNext_relinked : Relinked nodes (setNext nodes i link) := by
  refine ⟨by simp [setNext], fun j => ?_, fun j => ?_⟩
  all_goals
    rw [setNext, nodeAt_modify _ within]
    split
    · simp_all
    · rfl

theorem setPrevious_relinked : Relinked nodes (setPrevious nodes i link) := by
  refine ⟨by simp [setPrevious], fun j => ?_, fun j => ?_⟩
  all_goals
    rw [setPrevious, nodeAt_modify _ within]
    split
    · simp_all
    · rfl

theorem nextOf_setNext : nextOf (setNext nodes i link) = Function.update (nextOf nodes) i link := by
  funext j
  rw [nextOf, setNext, nodeAt_modify _ within, Function.update_apply]
  split <;> rfl

theorem previousOf_setNext : previousOf (setNext nodes i link) = previousOf nodes := by
  funext j
  rw [previousOf, setNext, nodeAt_modify _ within]
  split
  · simp_all [previousOf]
  · rfl

theorem nextOf_setPrevious : nextOf (setPrevious nodes i link) = nextOf nodes := by
  funext j
  rw [nextOf, setPrevious, nodeAt_modify _ within]
  split
  · simp_all [nextOf]
  · rfl

theorem previousOf_setPrevious :
    previousOf (setPrevious nodes i link) = Function.update (previousOf nodes) i link := by
  funext j
  rw [previousOf, setPrevious, nodeAt_modify _ within, Function.update_apply]
  split <;> rfl

end Links

def Queued (nodes : List OrderNode) (level : LevelNode) (xs : List Nat) : Prop :=
  Linked (previousOf nodes) (nextOf nodes) level.head level.tail xs

def Untouched (nodes nodes' : List OrderNode) (i : Nat) : Prop :=
  nextOf nodes' i = nextOf nodes i ∧ previousOf nodes' i = previousOf nodes i

theorem Queued.frame (queued : Queued nodes level xs) (same : ∀ i ∈ xs, Untouched nodes nodes' i) :
    Queued nodes' level xs :=
  queued.congr (fun i hi => (same i hi).1) (fun i hi => (same i hi).2)

/-- What working on a level does: the queue of the level becomes another, and no link outside of the
nodes named is written. -/
structure Worked (nodes : List OrderNode) (level : LevelNode) (work : LevelNode × List OrderNode)
    (touched xs : List Nat) : Prop where
  relinked : Relinked nodes work.2
  queued : Queued work.2 work.1 xs
  price : work.1.priceTicks = level.priceTicks
  untouched : ∀ j ∉ touched, Untouched nodes work.2 j

theorem appendOrder_worked (queued : Queued nodes level xs) (within : ∀ x ∈ xs, x < nodes.length)
    (single : xs.Nodup) (inRange : i < nodes.length) (new : i ∉ xs) :
    Worked nodes level (appendOrder level nodes i) (i :: xs) (xs ++ [i]) ∧
      (appendOrder level nodes i).1.totalQuantity =
        level.totalQuantity + (nodeAt nodes i).order.quantity ∧
      (appendOrder level nodes i).1.orderCount = level.orderCount + 1 := by
  have step : Relinked nodes (setPrevious nodes i level.tail) := setPrevious_relinked inRange
  have inRange' : i < (setPrevious nodes i level.tail).length := step.length ▸ inRange
  have ended : Relinked (setPrevious nodes i level.tail)
      (setNext (setPrevious nodes i level.tail) i none) := setNext_relinked inRange'
  have relinked := step.trans ended
  have next : nextOf (setNext (setPrevious nodes i level.tail) i none) =
      Function.update (nextOf nodes) i none := by
    rw [nextOf_setNext inRange', nextOf_setPrevious inRange]
  have previous : previousOf (setNext (setPrevious nodes i level.tail) i none) =
      Function.update (previousOf nodes) i level.tail := by
    rw [previousOf_setNext inRange', previousOf_setPrevious inRange]
  cases atEnd : level.tail with
  | none =>
    rw [atEnd] at relinked next previous
    obtain rfl : xs = [] := by
      have last := queued.tail_eq
      rw [atEnd] at last
      exact List.getLast?_eq_none_iff.mp last.symm
    unfold appendOrder
    rw [atEnd]
    refine ⟨⟨relinked, ⟨?_, ?_⟩, rfl, fun j other => ?_⟩, ?_, rfl⟩
    · exact ⟨rfl, by rw [next, Function.update_self]; rfl⟩
    · exact ⟨rfl, by rw [previous, Function.update_self]; rfl⟩
    · have apart : j ≠ i := by simpa using other
      unfold Untouched
      rw [next, previous, Function.update_of_ne apart, Function.update_of_ne apart]
      exact ⟨rfl, rfl⟩
    · simp only [relinked.order]
  | some tail =>
    rw [atEnd] at relinked next previous
    have last : xs.getLast? = some tail := by rw [← queued.tail_eq, atEnd]
    have mem : tail ∈ xs := List.mem_of_getLast? last
    have inRange'' : tail < (setNext (setPrevious nodes i (some tail)) i none).length := by
      rw [relinked.length]
      exact within tail mem
    have joined : Relinked (setNext (setPrevious nodes i (some tail)) i none)
        (setNext (setNext (setPrevious nodes i (some tail)) i none) tail (some i)) :=
      setNext_relinked inRange''
    have relinked' := relinked.trans joined
    have apart : tail ≠ i := fun same => new (same ▸ mem)
    have entry : level.head.or (some i) = level.head := by
      rw [queued.forward.head]
      cases xs with
      | nil => cases mem
      | cons x xs => rfl
    have appended : Linked (Function.update (previousOf nodes) i (some tail))
        (Function.update (Function.update (nextOf nodes) i none) tail (some i))
        (level.head.or (some i)) (some i) (xs ++ [i]) := by
      refine queued.append new single ?_ ?_ ?_ ?_ ?_
      · rw [Function.update_of_ne apart.symm, Function.update_self]
      · rw [Function.update_self, atEnd]
      · intro z hz
        obtain rfl : tail = z := Option.some.inj (atEnd.symm.trans hz)
        rw [Function.update_self]
      · intro z hz other
        have away : z ≠ tail := fun same => other (same ▸ atEnd)
        rw [Function.update_of_ne away, Function.update_of_ne hz]
      · exact fun z hz => Function.update_of_ne hz _ _
    rw [entry] at appended
    unfold appendOrder
    rw [atEnd]
    refine ⟨⟨relinked', ?_, rfl, fun j other => ?_⟩, ?_, rfl⟩
    · unfold Queued
      dsimp only
      rw [nextOf_setNext inRange'', previousOf_setNext inRange'', next, previous]
      exact appended
    · obtain ⟨away, outside⟩ := not_or.mp (List.mem_cons.not.mp other)
      have away' : j ≠ tail := fun same => outside (same ▸ mem)
      unfold Untouched
      dsimp only
      rw [nextOf_setNext inRange'', previousOf_setNext inRange'', next, previous,
        Function.update_of_ne away', Function.update_of_ne away, Function.update_of_ne away]
      exact ⟨rfl, rfl⟩
    · simp only [relinked'.order]

/-- The rest of a level, apart from the entries of its queue. -/
def figures (level : LevelNode) : Int × Int × Nat :=
  (level.priceTicks, level.totalQuantity, level.orderCount)

theorem unlinkFront_spec (level : LevelNode) (ahead : previousOf nodes i = front.getLast?)
    (within : ∀ x ∈ front, x < nodes.length) :
    ∃ level' nodes', unlinkFront level nodes (nodeAt nodes i) = (level', nodes') ∧
      Relinked nodes nodes' ∧ previousOf nodes' = previousOf nodes ∧
      (∀ z, nextOf nodes' z = if front.getLast? = some z then nextOf nodes i else nextOf nodes z) ∧
      level'.head = (if front = [] then nextOf nodes i else level.head) ∧
      level'.tail = level.tail ∧ figures level' = figures level := by
  unfold unlinkFront
  rw [show (nodeAt nodes i).previous = front.getLast? from ahead]
  cases last : front.getLast? with
  | none =>
    refine ⟨_, _, rfl, Relinked.refl _, rfl, fun z => rfl, ?_, rfl, rfl⟩
    rw [if_pos (List.getLast?_eq_none_iff.mp last)]
    rfl
  | some previous =>
    have mem : previous ∈ front := List.mem_of_getLast? last
    have inRange := within previous mem
    refine ⟨_, _, rfl, setNext_relinked inRange, previousOf_setNext inRange, fun z => ?_, ?_, rfl, rfl⟩
    · rw [nextOf_setNext inRange]
      by_cases same : z = previous
      · simp [same, nextOf]
      · simp [same, Ne.symm same]
    · rw [if_neg (List.ne_nil_of_mem mem)]

theorem unlinkBack_spec (level : LevelNode) (behind : nextOf nodes i = back.head?)
    (within : ∀ x ∈ back, x < nodes.length) :
    ∃ level' nodes', unlinkBack level nodes (nodeAt nodes i) = (level', nodes') ∧
      Relinked nodes nodes' ∧ nextOf nodes' = nextOf nodes ∧
      (∀ z, previousOf nodes' z =
        if back.head? = some z then previousOf nodes i else previousOf nodes z) ∧
      level'.head = level.head ∧
      level'.tail = (if back = [] then previousOf nodes i else level.tail) ∧
      figures level' = figures level := by
  unfold unlinkBack
  rw [show (nodeAt nodes i).next = back.head? from behind]
  cases back with
  | nil => exact ⟨_, _, rfl, Relinked.refl _, rfl, fun z => rfl, rfl, rfl, rfl⟩
  | cons next back =>
    have inRange := within next List.mem_cons_self
    refine ⟨_, _, rfl, setPrevious_relinked inRange, nextOf_setPrevious inRange, fun z => ?_, rfl, ?_, rfl⟩
    · rw [previousOf_setPrevious inRange]
      by_cases same : z = next
      · simp [same, previousOf]
      · simp [same, Ne.symm same]
    · exact (if_neg (by simp)).symm

theorem unlinkOrder_worked (queued : Queued nodes level (front ++ i :: back))
    (within : ∀ x ∈ front ++ i :: back, x < nodes.length) (single : (front ++ i :: back).Nodup) :
    Worked nodes level (unlinkOrder level nodes i) (front ++ back) (front ++ back) ∧
      (unlinkOrder level nodes i).1.totalQuantity = level.totalQuantity ∧
      (unlinkOrder level nodes i).1.orderCount = level.orderCount - 1 := by
  obtain ⟨ahead, behind⟩ := queued.neighbours
  have apart := (List.nodup_cons.mp (List.nodup_middle.mp single)).1
  obtain ⟨level₁, nodes₁, first, relinked₁, previous₁, next₁, head₁, tail₁, figures₁⟩ :=
    unlinkFront_spec level ahead (fun x hx => within x (List.mem_append_left _ hx))
  -- the node's own links are still the old ones
  have self : nextOf nodes₁ i = nextOf nodes i := by
    rw [next₁, if_neg (fun last => apart (List.mem_append_left _ (List.mem_of_getLast? last)))]
  have within₁ : ∀ x ∈ back, x < nodes₁.length := by
    intro x hx
    rw [relinked₁.length]
    exact within x (List.mem_append_right _ (List.mem_cons_of_mem _ hx))
  obtain ⟨level₂, nodes₂, second, relinked₂, next₂, previous₂, head₂, tail₂, figures₂⟩ :=
    unlinkBack_spec level₁ (self.trans behind) within₁
  have kept := figures₂.trans figures₁
  simp only [figures, Prod.mk.injEq] at kept
  have done : unlinkOrder level nodes i =
      ({ level₂ with orderCount := level₂.orderCount - 1 }, nodes₂) := by
    unfold unlinkOrder
    simp only [first, second]
  rw [done]
  refine ⟨⟨relinked₁.trans relinked₂, ?_, kept.1, fun j other => ?_⟩, kept.2.1, ?_⟩
  · unfold Queued
    dsimp only
    rw [head₂, head₁, tail₂, tail₁, previous₁]
    refine queued.unlink single ?_ ?_ ?_ ?_
    · intro z hz
      rw [next₂, next₁, if_pos hz]
    · intro z hz
      rw [previous₂, if_pos hz, previous₁]
    · intro z hz
      rw [next₂, next₁, if_neg hz]
    · intro z hz
      rw [previous₂, if_neg hz, previous₁]
  · obtain ⟨notFront, notBack⟩ := not_or.mp (List.mem_append.not.mp other)
    unfold Untouched
    dsimp only
    rw [next₂, next₁, previous₂, previous₁,
      if_neg (fun last => notFront (List.mem_of_getLast? last)),
      if_neg (fun first => notBack (List.mem_of_head? first))]
    exact ⟨rfl, rfl⟩
  · dsimp only
    rw [kept.2.2]

/-- The free list: from its head through all nodes that hold no order. -/
structure FreeList (nodes : List OrderNode) (freeHead : Option Nat) (cells : List Nat) : Prop where
  path : Path (nextOf nodes) freeHead cells
  single : cells.Nodup
  mem : ∀ i, i ∈ cells ↔ i < nodes.length ∧ (nodeAt nodes i).active = false

theorem FreeList.frame {freeHead : Option Nat} (free : FreeList nodes freeHead cells)
    (relinked : Relinked nodes nodes')
    (untouched : ∀ i, (nodeAt nodes i).active = false → nextOf nodes' i = nextOf nodes i) :
    FreeList nodes' freeHead cells where
  path := free.path.congr (fun i hi => untouched i ((free.mem i).mp hi).2)
  single := free.single
  mem i := by rw [free.mem, relinked.length, relinked.active]

def fresh (order : Order) : OrderNode := { order, previous := none, next := none, active := true }

theorem acquireNode_spec {p : PooledOrderBook} (free : FreeList p.orderNodes p.freeHead cells)
    (order : Order) :
    ∃ nodes freeHead i cells',
      p.acquireNode order = ({ p with orderNodes := nodes, freeHead }, i) ∧
      (nodeAt p.orderNodes i).active = false ∧
      (∀ j, nodeAt nodes j = if j = i then fresh order else nodeAt p.orderNodes j) ∧
      FreeList nodes freeHead cells' := by
  unfold acquireNode
  cases head : p.freeHead with
  | some i =>
    rw [head] at free
    obtain ⟨cells', rfl⟩ : ∃ cells', cells = i :: cells' := by
      cases cells with
      | nil => cases free.path
      | cons j cells =>
        obtain rfl : i = j := Option.some.inj free.path.1
        exact ⟨cells, rfl⟩
    obtain ⟨within, idle⟩ := (free.mem i).mp List.mem_cons_self
    obtain ⟨out, single⟩ := List.nodup_cons.mp free.single
    have at_ (j : Nat) : nodeAt (p.orderNodes.set i (fresh order)) j =
        if j = i then fresh order else nodeAt p.orderNodes j := by
      by_cases same : j = i
      · simp [nodeAt, List.getD_eq_getElem?_getD, same, within]
      · simp [nodeAt, List.getD_eq_getElem?_getD, same, Ne.symm same]
    refine ⟨p.orderNodes.set i (fresh order), _, i, cells', rfl, idle, at_,
      ⟨free.path.2.congr fun j hj => ?_, single, fun j => ?_⟩⟩
    · have apart : j ≠ i := fun same => out (same ▸ hj)
      rw [nextOf, at_, if_neg apart]
      rfl
    · rw [at_, List.length_set]
      by_cases same : j = i
      · subst same
        simp [out, fresh]
      · have member := free.mem j
        rw [List.mem_cons, or_iff_right same] at member
        rw [if_neg same, member]
  | none =>
    rw [head] at free
    obtain rfl : cells = [] := by
      cases cells with
      | nil => rfl
      | cons j cells => cases free.path.1
    have at_ (j : Nat) : nodeAt (p.orderNodes ++ [fresh order]) j =
        if j = p.orderNodes.length then fresh order else nodeAt p.orderNodes j := by
      rcases Nat.lt_trichotomy j p.orderNodes.length with less | same | more
      · simp [nodeAt, List.getD_eq_getElem?_getD, List.getElem?_append_left less, Nat.ne_of_lt less]
      · simp [nodeAt, List.getD_eq_getElem?_getD, same]
      · rw [if_neg (Nat.ne_of_gt more), nodeAt, nodeAt, List.getD_eq_default _ _ more.le,
          List.getD_eq_default]
        simpa using more
    have idle : (nodeAt p.orderNodes p.orderNodes.length).active = false := by
      rw [nodeAt, List.getD_eq_default _ _ le_rfl]
    refine ⟨p.orderNodes ++ [fresh order], none, p.orderNodes.length, [], rfl, idle, at_,
      ⟨rfl, .nil, fun j => ?_⟩⟩
    have all := free.mem j
    rw [at_, List.length_append]
    by_cases same : j = p.orderNodes.length
    · simp [same, fresh]
    · rw [if_neg same]
      rw [all]
      simp only [List.length_singleton]
      refine and_congr_left (fun _ => ?_)
      omega

theorem releaseNode_spec {freeHead : Option Nat} (free : FreeList nodes freeHead cells)
    (active : (nodeAt nodes i).active = true) :
    ∃ nodes',
      (∀ p : PooledOrderBook, p.orderNodes = nodes → p.freeHead = freeHead →
        p.releaseNode i = { p with orderNodes := nodes', freeHead := some i }) ∧
      (∀ j, j ≠ i → nodeAt nodes' j = nodeAt nodes j) ∧
      (nodeAt nodes' i).active = false ∧ FreeList nodes' (some i) (i :: cells) := by
  have within := lt_of_active active
  have out : i ∉ cells := by
    intro mem
    rw [((free.mem i).mp mem).2] at active
    cases active
  obtain ⟨nodes', written⟩ : ∃ nodes', nodes' = nodes.modify i (fun node =>
    { node with active := false, previous := none, next := freeHead }) := ⟨_, rfl⟩
  have self : nodeAt nodes' i =
      { nodeAt nodes i with active := false, previous := none, next := freeHead } := by
    rw [written, nodeAt_modify _ within, if_pos rfl]
  have other (j : Nat) (apart : j ≠ i) : nodeAt nodes' j = nodeAt nodes j := by
    rw [written, nodeAt_modify _ within, if_neg apart]
  refine ⟨nodes', ?_, other, by rw [self], ⟨?_, List.nodup_cons.mpr ⟨out, free.single⟩, fun j => ?_⟩⟩
  · rintro p rfl rfl
    rw [written]
    rfl
  · refine free.path.push out ?_ (fun z apart => ?_)
    · rw [nextOf, self]
    · rw [nextOf, other z apart]
      rfl
  · rw [List.mem_cons, free.mem, written, List.length_modify, ← written]
    by_cases same : j = i
    · subst same
      rw [self]
      simp [within]
    · rw [other j same, or_iff_right same]

end Asterion.PooledOrderBook
