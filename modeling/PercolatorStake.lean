import PercolatorStake.Solvency
import PercolatorStake.Recovery
import PercolatorStake.Insurance
import PercolatorStake.FeeAccrual
import PercolatorStake.Dilution
import PercolatorStake.Coalition
import PercolatorStake.Liveness
import PercolatorStake.Resolution
import PercolatorStake.DeadShares
import PercolatorStake.Timelock
import PercolatorStake.HwmDrain
import PercolatorStake.JuniorGate
import PercolatorStake.MarketBinding
import PercolatorStake.SeniorOrphan
import PercolatorStake.WireFidelity
import PercolatorStake.Layout
import PercolatorStake.Configuration
import PercolatorStake.HwmFreeze
import PercolatorStake.FeeSplitExact
import PercolatorStake.KaniMirror
import PercolatorStake.Inflation
import PercolatorStake.Isolation
import PercolatorStake.AccrualTiming
import PercolatorStake.Custody
import PercolatorStake.Composition
import PercolatorStake.Authority
import PercolatorStake.AccountBytes
import PercolatorStake.Lamports
import PercolatorStake.Governance
import PercolatorStake.Admission
import PercolatorStake.Exit
import PercolatorStake.Channels
