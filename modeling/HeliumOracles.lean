import HeliumOracles.Lib.Transition
import HeliumOracles.Lib.Result
import HeliumOracles.Lib.Word
import HeliumOracles.Lib.Tally
import HeliumOracles.Lib.Relational
import HeliumOracles.Lib.AssocMap
import HeliumOracles.Lib.Decimal
import HeliumOracles.Lib.Reorder
import HeliumOracles.Lib.TransactionLog
import HeliumOracles.Lib.Numeral
import HeliumOracles.RewardScheduler.Scheduler
import HeliumOracles.IotConfig.HeliumNetids
import HeliumOracles.IotConfig.OrgStore
import HeliumOracles.IotConfig.LoraField
import HeliumOracles.IotPacketVerifier.Balances
import HeliumOracles.IotPacketVerifier.Pending
import HeliumOracles.IotPacketVerifier.System
import HeliumOracles.IotPacketVerifier.WellFormed
import HeliumOracles.IotPacketVerifier.Ledger
import HeliumOracles.FileStore.FileInfoPoller
import HeliumOracles.FileStore.Dedup
import HeliumOracles.MobilePacketVerifier.Burner
import HeliumOracles.MobilePacketVerifier.BurnOnce
import HeliumOracles.MobileConfig.BoostedHexInfo
import HeliumOracles.MobileVerifier.ValidRadios
import HeliumOracles.MobileVerifier.SpeedtestsAverage
import HeliumOracles.MobileVerifier.TrustScore
import HeliumOracles.MobileVerifier.CoveredHexes
import HeliumOracles.MobileVerifier.CoveragePoints
import HeliumOracles.MobileVerifier.CoverageRanking
import HeliumOracles.MobileVerifier.Seniority
import HeliumOracles.MobileVerifier.RewardShares
import HeliumOracles.MobileVerifier.TransferRewards
import HeliumOracles.MobileVerifier.PocRewards
import HeliumOracles.MobileVerifier.Rewarder
import HeliumOracles.IotVerifier.Poc
import HeliumOracles.IotVerifier.Runner
import HeliumOracles.IotVerifier.RewardUnits
import HeliumOracles.IotVerifier.HexDensity
import HeliumOracles.IotVerifier.Rewarder
import HeliumOracles.IotVerifier.RewardShare
import HeliumOracles.TaskManager.Start
import HeliumOracles.PriceOracle.PriceGenerator
import HeliumOracles.FileStore.FileInfo
import HeliumOracles.FileStore.FileSink
import HeliumOracles.FileStore.Listing
import HeliumOracles.RewardIndex.Indexer
import HeliumOracles.BoostManager.Activation
