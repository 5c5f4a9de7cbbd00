import AutoQuantTrader.CapitalSafety
import AutoQuantTrader.UnknownHold
import AutoQuantTrader.CommandReplay
import AutoQuantTrader.AccountEquity
import AutoQuantTrader.FifoLineage
import AutoQuantTrader.LotArithmetic
import AutoQuantTrader.PositionReplay
import AutoQuantTrader.ReplayLaws
import AutoQuantTrader.ApprovedInstallation
import AutoQuantTrader.TargetReached
import AutoQuantTrader.CancelRequest
import AutoQuantTrader.FencingSafety
import AutoQuantTrader.BatchConsumption
import AutoQuantTrader.ReservationConservation
import AutoQuantTrader.RiskReservations
import AutoQuantTrader.RequestBudgetWindow
import AutoQuantTrader.CriticalAlertControl
import AutoQuantTrader.DecisionSafety
import AutoQuantTrader.CanonicalDecimal
import AutoQuantTrader.WealthPath
