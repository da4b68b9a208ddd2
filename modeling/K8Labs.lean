import K8Labs.Artifacts.Interrupted
import K8Labs.Capture.Filtered
import K8Labs.Observers.Collector
import K8Labs.Observers.Hierarchy
import K8Labs.Phase8.Bundle
import K8Labs.Phase8.Campaign
import K8Labs.Phase8.Monotonic
import K8Labs.Phase8.Pilot
import K8Labs.Phase8.ResponseTable
import K8Labs.Observers.Recovered
import K8Labs.Multiplicity.StepDown
import K8Labs.Python.Maths
import K8Labs.CpuLimits.Stats
import K8Labs.CpuLimits.Analyze
import K8Labs.CpuLimits.OneMetric
import K8Labs.CpuLimits.Returns
import K8Labs.LinuxSched.Analyses
import K8Labs.LinuxSched.FactorialSampleSize
import K8Labs.HostAgent.Chain
import K8Labs.LinuxSched.RunBlock
import K8Labs.Firmware.SignatureList
import K8Labs.Firmware.WireEnroll
import K8Labs.CapiAddons.Check
import K8Labs.Observers.Validate
import K8Labs.KubeSched.Placement
import K8Labs.SchedCoreModes.RunMatrix
import K8Labs.SchedCoreDelta.Governor
import K8Labs.CpuLimits.KernelComparison
import K8Labs.CpuLimits.RunCell
import K8Labs.LinuxSched.CpuPolicy
import K8Labs.Python.Double
import K8Labs.BpfTracer.Tasks
import K8Labs.Phase8.BracketSearch
import K8Labs.CapiAddons.Split
import K8Labs.CpuLimits.MetricValues
import K8Labs.Phase8.OpenLoop
import K8Labs.HostAgent.Address
import K8Labs.Management.Corefile
import K8Labs.Management.PatchProvider
import K8Labs.KernelBuild.ConfigFragment
import K8Labs.KernelBuild.Nvr
import K8Labs.KernelBuild.ArtifactHashes
import K8Labs.KernelBuild.SourceGate
import K8Labs.KernelBuild.InterfaceReload
import K8Labs.Manifests.Normalize
import K8Labs.CpuLimits.PodName
import K8Labs.CpuLimits.StatDeltas
import K8Labs.CpuLimits.FreezePolicies
import K8Labs.LinuxSched.PruneData
import K8Labs.LinuxSched.RateSweep
import K8Labs.LinuxSched.RequiredBlocks
import K8Labs.SchedCoreDelta.AnalyseMetric
import K8Labs.SchedCoreDelta.RunScenario
import K8Labs.SchedCoreDelta.TaskChurn
import K8Labs.SchedCoreDelta.PeriodicBurn
import K8Labs.SchedCoreModes.WakeupLatency
import K8Labs.KubeSched.Capacity
import K8Labs.LinuxSched.FreezeQuota
import K8Labs.HostAgent.Staging
import K8Labs.Artifacts.PopulatedRun
import K8Labs.Phase8.SharedCache
import K8Labs.Phase7.LoadGen
import K8Labs.Phase7.Httpd
import K8Labs.SchedCoreDelta.Pingpong
import K8Labs.GuestUpgrade.Stages
import K8Labs.Firmware.EnrollKeys
