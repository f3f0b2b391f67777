import MarketLens.Copier.DiffLedger
import MarketLens.Commands.Handout
import MarketLens.Commands.ParentRuns
import MarketLens.PropRisk.OpenRisk
import MarketLens.PropRisk.StickyDay
import MarketLens.PropRisk.BestDay
import MarketLens.Copier.Protection
import MarketLens.Copier.Reductions
import MarketLens.Copier.Reversal
import MarketLens.Copier.Drain
import MarketLens.Replay.Clock
import MarketLens.Replay.Brackets
import MarketLens.Replay.Batching
import MarketLens.Replay.Subscriptions
import MarketLens.Replay.BarPath
import MarketLens.Replay.ReportRuns
import MarketLens.Replay.Reset
import MarketLens.Replay.Pace
import MarketLens.Replay.Conservation
import MarketLens.Replay.Progressive
import MarketLens.Pine.Stateful.Maps
import MarketLens.Mt5Vm.Binding
import MarketLens.Mt5Vm.Removal
import MarketLens.Mt5Vm.Identity
import MarketLens.Mt5Vm.Reservation
import MarketLens.Mt5Vm.EaRevision
import MarketLens.Mt5Vm.DisconnectFence
import MarketLens.Mt5Vm.StaleAck
import MarketLens.Mt5Vm.PlacementBound
import MarketLens.Mt5Vm.Reconcile
import MarketLens.Pine.ReplayCutoff
import MarketLens.Pine.JobGroup
import MarketLens.VmAgent.HexText
import MarketLens.VmAgent.Throttle
import MarketLens.Alerts.Explained
import MarketLens.TradeAuth.GuessRuns
import MarketLens.Watchlists.Sections
import MarketLens.Drawings.CommandManager
import MarketLens.Drawings.Revisions
import MarketLens.Mt5Vm.HistoryReads
