import Asterion.MarketData.ReplayHalts

/-! Snapshot blocks: writing the resting orders of a book as snapshot records and replaying
them rebuilds the book, whatever was there before. -/
namespace Asterion

open Lib Lib.StoppingLoop

def Order.record (o : Order) : MarketDataEvent :=
  { timestampNs := o.timestampNs
    sequenceNumber := o.sequenceNumber
    symbolId := o.symbolId
    eventType := .snapshot
    side := o.side
    priceTicks := o.priceTicks
    quantity := o.quantity
    orderId := o.orderId }

def snapshotMarker (symbolId : Nat) (timestampNs : Int) (sequenceNumber flags : Nat) :
    MarketDataEvent :=
  { timestampNs, sequenceNumber, symbolId, eventType := .snapshot, flags }

/-- A begin marker, the resting orders in priority order, bids first, and an end marker. -/
def OrderBook.snapshot (b : OrderBook) (t₁ : Int) (n₁ : Nat) (t₂ : Int) (n₂ : Nat) :
    List MarketDataEvent :=
  snapshotMarker b.symbolId t₁ n₁ snapshotBeginFlag ::
    (b.resting.map Order.record ++ [snapshotMarker b.symbolId t₂ n₂ snapshotEndFlag])

theorem enqueue_last {o : Order} {q : List Order}
    (behind : ∀ x ∈ q, ¬ Order.outranks o.side o x) : enqueue o q = q ++ [o] := by
  induction q with
  | nil => rfl
  | cons x q ih =>
    have hx := behind x List.mem_cons_self
    have ht := ih (fun y hy => behind y (List.mem_cons_of_mem _ hy))
    unfold enqueue at ht ⊢
    rw [List.orderedInsert_cons, if_neg hx, ht]
    rfl

/-- Orders that came from market data carry no client order id. -/
def Anonymous (q : Queues) : Prop := ∀ s, ∀ o ∈ q s, o.clientOrderId = invalidClientOrderId

theorem anonymous_apply {q q' : Queues} {symbolId : Nat} {event : MarketDataEvent}
    (h : Anonymous q) (hq : q.apply symbolId event = some q') : Anonymous q' := by
  have added {p : Queues} (hp : Anonymous p) (hadd : p.add symbolId event.order = some q') :
      Anonymous q' := by
    unfold Queues.add at hadd
    split at hadd
    · intro s o ho
      rw [← Option.some.inj hadd] at ho
      dsimp only at ho
      split at ho
      · rcases mem_enqueue.mp ho with rfl | ho
        · rfl
        · exact hp s o ho
      · exact hp s o ho
    · cases hadd
  have consumed (f : Order × Int) : Anonymous (fun s => consume f (q s)) := by
    intro s o ho
    dsimp only at ho
    unfold consume at ho
    split at ho
    · obtain ⟨x, hx, rfl⟩ := List.mem_map.mp ho
      split
      · exact h s x hx
      · exact h s x hx
    · exact h s o (mem_dequeue.mp ho).1
  unfold Queues.apply at hq
  cases ht : event.eventType with
  | trade =>
    simp only [ht, Option.some.injEq] at hq
    exact hq ▸ h
  | heartbeat =>
    simp only [ht, Option.some.injEq] at hq
    exact hq ▸ h
  | add =>
    simp only [ht] at hq
    exact added h hq
  | snapshot =>
    simp only [ht] at hq
    have base : Anonymous (if event.beginsSnapshot then fun _ => [] else q) := by
      split
      · exact fun s o ho => by cases ho
      · exact h
    split at hq
    · exact added base hq
    · exact Option.some.inj hq ▸ base
  | cancel =>
    simp only [ht] at hq
    split at hq
    · unfold Queues.reduce at hq
      split at hq
      · cases hq
      · obtain ⟨x, -, rfl⟩ := Option.map_eq_some_iff.mp hq
        exact consumed _
    · obtain ⟨x, -, rfl⟩ := Option.map_eq_some_iff.mp hq
      exact fun s o ho => h s o (mem_dequeue.mp ho).1
  | execute =>
    simp only [ht, Queues.reduce] at hq
    split at hq
    · cases hq
    · obtain ⟨x, -, rfl⟩ := Option.map_eq_some_iff.mp hq
      exact consumed _
  | replace =>
    simp only [ht, Queues.replace] at hq
    split at hq
    · cases hq
    · obtain ⟨x, hx, rfl⟩ := Option.map_eq_some_iff.mp hq
      have anonymous : x.clientOrderId = invalidClientOrderId := by
        rcases List.mem_append.mp (List.mem_of_find?_eq_some hx) with hx | hx
        · exact h _ x hx
        · exact h _ x hx
      intro s o ho
      dsimp only at ho
      split at ho
      · rcases mem_enqueue.mp ho with rfl | ho
        · exact anonymous
        · exact h s o (mem_dequeue.mp ho).1
      · exact h s o ho

namespace ReplayStream

/-- A stream on which only the book is checked, in a supported mode. -/
structure BookOnly (s : ReplayStream) : Prop where
  state : s.engine.config.validateBookState = true
  supported : s.engine.config.Supported
  sequence : s.engine.config.validateSequenceNumbers = false
  timestamps : s.engine.config.validateTimestamps = false

theorem BookOnly.inOrder {s : ReplayStream} (h : BookOnly s) (event : MarketDataEvent) :
    s.InOrder event := by
  simp [InOrder, checkSequence, checkTimestamp, h.sequence, h.timestamps]

theorem BookOnly.step {s : ReplayStream} (h : BookOnly s) (event : MarketDataEvent) :
    s.step event = s.applyStep event := by
  simp [ReplayStream.step, checkSequence, checkTimestamp, h.sequence, h.timestamps]

/-- A stream of a symbol that no event has stopped, and that checks the book only. -/
structure Rebuilding (symbolId : Nat) (s : ReplayStream) : Prop where
  running : Running s
  config : BookOnly s
  symbol : s.engine.book.symbolId = symbolId

theorem Rebuilding.step {symbolId : Nat} {s : ReplayStream} (h : Rebuilding symbolId s)
    {event : MarketDataEvent} (on : (s.step event).2 = true) :
    Rebuilding symbolId (s.step event).1 := by
  obtain ⟨accepts, served, book⟩ := step_served on
  refine ⟨running_step h.running on, ⟨?_, ?_, ?_, ?_⟩, ?_⟩
  · rw [served.config]
    exact h.config.state
  · rw [served.config]
    exact h.config.supported
  · rw [served.config]
    exact h.config.sequence
  · rw [served.config]
    exact h.config.timestamps
  · rw [book]
    exact (bookAfter_wf h.running.wf accepts.1.2).2.trans h.symbol

theorem Rebuilding.loop {symbolId : Nat} {s : ReplayStream} (h : Rebuilding symbolId s)
    (events : List MarketDataEvent) (on : (loop ReplayStream.step s events).2 = true) :
    Rebuilding symbolId (loop ReplayStream.step s events).1 :=
  loop_kept (I := Rebuilding symbolId) (fun _ _ hs on => Rebuilding.step hs on) h events on

/-- Serving one event of a block: it passes the checks and the book it leaves is uncrossed. -/
theorem serve {symbolId : Nat} {s : ReplayStream} (h : Rebuilding symbolId s)
    {event : MarketDataEvent} (valid : s.engine.validateEventBeforeApply event = none)
    {q : Queues} (hq : Queues.apply s.engine.book.queue symbolId event = some q)
    (uncrossed : q.Uncrossed) :
    (s.step event).2 = true ∧ (s.step event).1.engine.book.queue = q := by
  obtain ⟨h, config, rfl⟩ := h
  have out := applyToBook_outcome h.wf (ReplayEngine.validated valid)
  have reached : s.Reached event := ⟨config.inOrder event, valid⟩
  have refused : (ReplayEngine.applyToBook s.engine.book event).2 = none := by
    have done := out.done
    rw [hq] at done
    exact Option.isNone_iff_eq_none.mp done
  have queue : (s.bookAfter event).queue = q := by
    have := out.queue
    rwa [hq] at this
  have checked := (checked_iff h config.state config.supported reached).mpr
    ((OrderBook.uncrossed_iff (bookAfter_wf h.wf valid).1).mpr (queue ▸ uncrossed))
  rcases s.step_spec event with ⟨hn, -⟩ | ⟨-, on, -, book⟩
  · exact absurd ⟨reached, refused, checked⟩ hn
  · rw [book]
    exact ⟨on, queue⟩

end ReplayStream

def portion (orders : List Order) : Queues := fun s => orders.filter (fun o => o.side = s)

theorem mem_portion {orders : List Order} {s : Side} {o : Order} :
    o ∈ portion orders s ↔ o ∈ orders ∧ o.side = s := by
  simp [portion]

section Rebuild
variable {b : OrderBook} (wf : b.WF)
include wf

theorem portion_resting : portion b.resting = b.queue := by
  have own {s : Side} : (b.queue s).filter (fun o => o.side = s) = b.queue s :=
    List.filter_eq_self.mpr fun o ho => decide_eq_true (OrderBook.mem_queue wf ho).1
  have other {s s' : Side} (hs : s ≠ s') : (b.queue s).filter (fun o => o.side = s') = [] :=
    List.filter_eq_nil_iff.mpr fun o ho hd =>
      hs ((OrderBook.mem_queue wf ho).1.symm.trans (of_decide_eq_true hd))
  funext s
  unfold portion OrderBook.resting
  rw [List.filter_append]
  cases s with
  | none => rw [other (by decide), other (by decide)]; rfl
  | buy => rw [own, other (by decide), List.append_nil]
  | sell => rw [own, other (by decide), List.nil_append]

variable {done rest : List Order} {o : Order} (split : b.resting = done ++ o :: rest)
include split

/-- The next order of the block goes behind all orders of its side that are there. -/
theorem add_next : (portion done).add b.symbolId o = some (portion (done ++ [o])) := by
  have ho : o ∈ b.resting := by rw [split]; simp
  have place := OrderBook.mem_queue wf ((OrderBook.mem_resting wf).mp ho)
  have ids := wf.ids
  rw [split, List.map_append, List.map_cons] at ids
  have free : (portion done).find o.orderId = none := by
    refine List.find?_eq_none.mpr fun x hx => ?_
    have hx : x ∈ done := by
      rcases List.mem_append.mp hx with hx | hx
      · exact (mem_portion.mp hx).1
      · exact (mem_portion.mp hx).1
    have := List.nodup_append.mp ids
    have hne := this.2.2 x.orderId (List.mem_map_of_mem hx) o.orderId List.mem_cons_self
    simpa using hne
  have behind : ∀ x ∈ portion done o.side, ¬ Order.outranks o.side o x := by
    intro x hx
    have sorted := OrderBook.queue_sorted wf o.side
    rw [← portion_resting wf, split] at sorted
    unfold portion at sorted
    rw [List.filter_append, List.pairwise_append] at sorted
    exact sorted.2.2 x hx o (by simp)
  rw [Queues.add, if_pos ⟨place.2.1, place.2.2, free⟩]
  congr 1
  funext s
  by_cases hs : s = o.side
  · rw [if_pos hs, hs, enqueue_last behind]
    simp [portion, List.filter_append]
  · rw [if_neg hs]
    simp [portion, List.filter_append, Ne.symm hs]

theorem portion_uncrossed (uncrossed : Queues.Uncrossed b.queue) :
    Queues.Uncrossed (portion (done ++ [o])) := by
  refine uncrossed.mono fun s x hx => ⟨x, ?_, rfl⟩
  obtain ⟨written, rfl⟩ := mem_portion.mp hx
  rw [← OrderBook.mem_resting wf, split]
  rcases List.mem_append.mp written with h | h
  · exact List.mem_append_left _ h
  · exact List.mem_append_right _ (List.mem_singleton.mp h ▸ List.mem_cons_self)

end Rebuild

namespace ReplayStream

theorem marker_valid {engine : ReplayEngine} {symbolId : Nat} (t : Int) (n flags : Nat)
    (symbol : engine.book.symbolId = symbolId) (valid : symbolId ≠ invalidSymbolId) :
    engine.validateEventBeforeApply (snapshotMarker symbolId t n flags) = none := by
  simp [ReplayEngine.validateEventBeforeApply, snapshotMarker, symbol, valid, isOrderIdRequired,
    isPriceRequired, isQuantityRequired, invalidOrderId]

theorem marker_apply (q : Queues) (symbolId : Nat) (t : Int) (n flags : Nat) :
    q.apply symbolId (snapshotMarker symbolId t n flags) =
      some (if flags &&& snapshotBeginFlag != 0 then fun _ => [] else q) := by
  simp [Queues.apply, snapshotMarker, MarketDataEvent.beginsSnapshot]

theorem record_valid {engine : ReplayEngine} {o : Order}
    (resting : isValidRestingOrder o = true) (symbol : o.symbolId = engine.book.symbolId) :
    engine.validateEventBeforeApply o.record = none := by
  simp only [isValidRestingOrder, Bool.and_eq_true, bne_iff_ne, decide_eq_true_eq] at resting
  obtain ⟨⟨⟨⟨-, hsym⟩, hside⟩, hprice⟩, hquantity⟩ := resting
  simp only [ReplayEngine.validateEventBeforeApply, Order.record, isOrderIdRequired,
    isPriceRequired, isQuantityRequired]
  simp [hsym, symbol.symm, hside, not_le.mpr hprice, not_lt.mpr hprice.le, not_le.mpr hquantity,
    not_lt.mpr hquantity.le]

section Rebuild
variable {b : OrderBook} (wf : b.WF) (uncrossed : Queues.Uncrossed b.queue)
  (anonymous : Anonymous b.queue)
include wf uncrossed anonymous

theorem records_served {done rest : List Order} {s : ReplayStream}
    (h : Rebuilding b.symbolId s) (split : b.resting = done ++ rest)
    (queue : s.engine.book.queue = portion done) :
    (loop ReplayStream.step s (rest.map Order.record)).2 = true ∧
      (loop ReplayStream.step s (rest.map Order.record)).1.engine.book.queue = b.queue := by
  induction rest generalizing s done with
  | nil =>
    rw [List.append_nil] at split
    rw [← portion_resting wf, split]
    exact ⟨rfl, queue⟩
  | cons o rest ih =>
    have ho : o ∈ b.resting := by rw [split]; simp
    have place := OrderBook.mem_queue wf ((OrderBook.mem_resting wf).mp ho)
    have client := anonymous _ o ((OrderBook.mem_resting wf).mp ho)
    have same : o.record.order = o := by
      unfold Order.record MarketDataEvent.order
      rw [← client]
    have valid : s.engine.validateEventBeforeApply o.record = none :=
      record_valid place.2.1 (place.2.2.trans h.symbol.symm)
    have added : Queues.apply s.engine.book.queue b.symbolId o.record =
        some (portion (done ++ [o])) := by
      rw [queue, ← add_next wf split]
      have hid : o.record.orderId ≠ invalidOrderId := OrderBook.orderId_ne_invalid wf ho
      have hb : o.record.beginsSnapshot = false := by
        simp [MarketDataEvent.beginsSnapshot, Order.record]
      have ht : o.record.eventType = .snapshot := rfl
      simp only [Queues.apply, ht, hb, Bool.false_eq_true, if_false, if_pos hid, same]
    obtain ⟨on, book⟩ := serve h valid added (portion_uncrossed wf split uncrossed)
    rw [List.map_cons, loop_cons_on on]
    exact ih (h.step on) (by simpa using split) book

/-- A snapshot block is served whole, on any book of the symbol, and leaves the book it was
written from. -/
theorem block_served {s : ReplayStream} (h : Rebuilding b.symbolId s)
    (valid : b.symbolId ≠ invalidSymbolId) (t₁ : Int) (n₁ : Nat) (t₂ : Int) (n₂ : Nat) :
    (loop ReplayStream.step s (b.snapshot t₁ n₁ t₂ n₂)).2 = true ∧
      (loop ReplayStream.step s (b.snapshot t₁ n₁ t₂ n₂)).1.engine.book.queue = b.queue := by
  have cleared := marker_apply s.engine.book.queue b.symbolId t₁ n₁ snapshotBeginFlag
  have kept := marker_apply b.queue b.symbolId t₂ n₂ snapshotEndFlag
  obtain ⟨on, empty⟩ :=
    serve h (marker_valid t₁ n₁ snapshotBeginFlag h.symbol valid) cleared Queues.uncrossed_empty
  have begun := h.step on
  obtain ⟨served, rebuilt⟩ :=
    records_served wf uncrossed anonymous begun (List.nil_append b.resting).symm empty
  have written := begun.loop _ served
  obtain ⟨ended, final⟩ := serve written
    (marker_valid t₂ n₂ snapshotEndFlag written.symbol valid) (rebuilt.symm ▸ kept) uncrossed
  rw [OrderBook.snapshot, loop_cons_on on, loop_append_on served, loop_cons_on ended]
  exact ⟨rfl, final⟩

end Rebuild

end ReplayStream
end Asterion
