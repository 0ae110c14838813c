import Asterion.Risk.ClientBooks
import Asterion.Risk.ExchangeIndex

/-! Reports that close an order. The gateway finds the order by the client id of the report or by its
exchange id, but releases it by the client id alone, and it takes out the index entry of the exchange
id of the order, whichever order that leads to. -/
namespace Asterion
open Lib Lib.Tally Lib.Along Lib.InverseIndex

namespace RiskGateway

section Steps
variable {fit : Int → Int} {g : RiskGateway} {clientOrderId : Nat} {order : WorkingOrder}

/-- Working orders have accepted ids, and the index leads to orders that carry the exchange id. -/
structure Linked (g : RiskGateway) : Prop where
  accepted : ∀ {id order}, g.workingOrders.lookup id = some order → id ∈ g.acceptedClientOrderIds
  leads : Leads boundId g.exchangeToClientOrderIds g.workingOrders

theorem Linked.register (linked : Linked g) {request : NewOrderRequest}
    (accepted : request.clientOrderId ∈ g.acceptedClientOrderIds)
    (fresh : g.workingOrders.lookup request.clientOrderId = none) :
    Linked (registerWorkingOrder fit g request) := by
  unfold registerWorkingOrder
  split
  · exact linked
  dsimp only
  obtain ⟨quantities, books, frame⟩ := @addWorkingOrderQuantity_frame fit
    (g.setOrder request.clientOrderId
      { clientId := request.clientId, symbolId := request.symbolId, side := request.side
        priceTicks := request.priceTicks, quantity := request.quantity })
    { clientId := request.clientId, symbolId := request.symbolId, side := request.side
      priceTicks := request.priceTicks, quantity := request.quantity } request.quantity
  rw [frame]
  refine ⟨fun h => ?_, linked.leads.insert_new fresh⟩
  rcases lookup_insert_cases h with ⟨rfl, -⟩ | old
  · exact accepted
  · exact linked.accepted old

end Steps

section Runs

end Runs

end RiskGateway

end Asterion
