import NriSupplyChain.Circuit.Permits
import NriSupplyChain.Guac.Concurrent
import NriSupplyChain.Verifier.RegistryAccess
import NriSupplyChain.Verifier.SharedResults
import NriSupplyChain.Verifier.Verdicts
import NriSupplyChain.Checker.Spec
import NriSupplyChain.Plugin.RuntimeConfigRuns
import NriSupplyChain.Plugin.ThrottleLimits
import NriSupplyChain.Sbom.Hidden
import NriSupplyChain.Glob.Agreement
import NriSupplyChain.Verifier.ImagePolicies
import NriSupplyChain.Feed.Prefilter
import NriSupplyChain.Sbom.PlainPaths
import NriSupplyChain.Sbom.Drift
import NriSupplyChain.Slsa.ResolvedSource
import NriSupplyChain.Verifier.VsaStep
import NriSupplyChain.Verifier.BuilderScope
import NriSupplyChain.Verifier.PolicyRollback
import NriSupplyChain.Vex.Outcome
import NriSupplyChain.TrustRoot.Retries
import NriSupplyChain.Verifier.OfflineRoots
import NriSupplyChain.Bundle.Agreement
import NriSupplyChain.Plugin.GraceCycle
