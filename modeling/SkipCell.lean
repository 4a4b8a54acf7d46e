import SkipCell.Cache.Clients
import SkipCell.Adaptive.Overlay
import SkipCell.Sidecar.Forest
import SkipCell.Search.SameHierarchy
import SkipCell.Delta.Durability
import SkipCell.Storage.Accounting
import SkipCell.Sidecar.Checksum
import SkipCell.Delta.Log
import SkipCell.IoIndex.Publication
import SkipCell.Build.PartitionPaths
import SkipCell.Build.CommunityCells
import SkipCell.Build.GatewayPaths
import SkipCell.Adaptive.PublicationLimit
import SkipCell.Adaptive.Wakeup
import SkipCell.Search.TerminalBudgets
import SkipCell.Search.SearchCurve
import SkipCell.Search.CellAdjacency
import SkipCell.Search.MemGraph
import SkipCell.Search.Expansion
import SkipCell.Search.PageRuns
import SkipCell.IoIndex.RecordTrim
import SkipCell.IoIndex.MappedBounds
import SkipCell.IoIndex.RawTopologyBounds
import SkipCell.IoIndex.CompressedRoundTrip
import SkipCell.Cache.Atomicity
import SkipCell.Cache.PrefetchAdmission
import SkipCell.IoIndex.Rebind
import SkipCell.Build.CanonicalPartition
import SkipCell.Rcni.CandidateHubs
import SkipCell.Rcni.OrderIndependence
import SkipCell.Search.NearestOffered
import SkipCell.Build.GatewayQuota
import SkipCell.Build.GatewayReselection
import SkipCell.Build.LocalityRepack
import SkipCell.Storage.StoreAtomicity
import SkipCell.Rcni.ExactCredit
import SkipCell.Vamana.Renumbering
import SkipCell.Vamana.Consolidation
import SkipCell.Rcni.LinkObservations
import SkipCell.DiskIndex.MergedIndex
import SkipCell.DiskIndex.CachedIo
import SkipCell.DiskIndex.EntryPoints
import SkipCell.DiskIndex.SingleIndex
import SkipCell.DiskIndex.ReorderData
import SkipCell.Foundation.RootedTree
import SkipCell.Training.HierarchyReader
import SkipCell.DiskIndex.LabelMedoids
import SkipCell.DiskIndex.DensePoints
import SkipCell.Search.BfsCache
import SkipCell.Training.BalancedKmeans
import SkipCell.Search.CommunityExpansion
