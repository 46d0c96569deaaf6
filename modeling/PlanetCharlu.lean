import PlanetCharlu.PostedOffers
import PlanetCharlu.Market
import PlanetCharlu.Lib.Reserve
import PlanetCharlu.PromisedReserve
import PlanetCharlu.OpenOffers
import PlanetCharlu.Session
import PlanetCharlu.Snapshots
import PlanetCharlu.Correlation
import PlanetCharlu.Runner
import PlanetCharlu.RunnerEffects
import PlanetCharlu.FreshStock
import PlanetCharlu.Commands
import PlanetCharlu.Lib.Window
import PlanetCharlu.ServerLimits
import PlanetCharlu.EmergencyBudget
import PlanetCharlu.Pauses
import PlanetCharlu.PaymentDiscipline
import PlanetCharlu.Withdrawals
import PlanetCharlu.Shortages
import PlanetCharlu.PriorityRule
import PlanetCharlu.OwnSteps
import PlanetCharlu.DecisionRuns
import PlanetCharlu.Lib.Rotation
import PlanetCharlu.PartnerRotation
import PlanetCharlu.Lib.SeenSet
import PlanetCharlu.SupplierRoster
import PlanetCharlu.RunLog
import PlanetCharlu.LoggedRunner
import PlanetCharlu.EndOfRun
import PlanetCharlu.SettledTrades
import PlanetCharlu.GiftSecurity
import PlanetCharlu.EmptyGifts
import PlanetCharlu.Progress
import PlanetCharlu.Cleanup
import PlanetCharlu.SessionCommands
import PlanetCharlu.Waiters
import PlanetCharlu.Wakeups
import PlanetCharlu.LiveSummary
import PlanetCharlu.Coalescing
import PlanetCharlu.Exceptions
import PlanetCharlu.LearningExceptions
import PlanetCharlu.SimplifiedExceptions
import PlanetCharlu.NeverRaises
import PlanetCharlu.Bazaar
import PlanetCharlu.Frames
import PlanetCharlu.Scenario
import PlanetCharlu.ScenarioEffects
import PlanetCharlu.ScenarioOrder
import PlanetCharlu.ScenarioLog
import PlanetCharlu.Lib.Computations
import PlanetCharlu.ClientProtocol
import PlanetCharlu.ScenarioServer
import PlanetCharlu.ScenarioCompletes
import PlanetCharlu.Lib.Readers
import PlanetCharlu.Lib.Json.Numbers
import PlanetCharlu.Lib.Json.Strings
import PlanetCharlu.Lib.Json.Scanner
import PlanetCharlu.Lib.Json
import PlanetCharlu.Lib.LineLog
import PlanetCharlu.Lib.Tally
import PlanetCharlu.Lib.Spans
import PlanetCharlu.LogFile
import PlanetCharlu.LogSummary
import PlanetCharlu.DecisionLog
import PlanetCharlu.LoggedHistory
import PlanetCharlu.RunFigures
