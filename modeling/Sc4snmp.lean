import Sc4snmp.Common.CollectionManager
import Sc4snmp.Common.GroupExpansion
import Sc4snmp.Common.RecordKeywords
import Sc4snmp.Common.SchemaMigration
import Sc4snmp.Enrich.Batches
import Sc4snmp.Enrich.Concurrency
import Sc4snmp.Enrich.Literal
import Sc4snmp.Enrich.Operations
import Sc4snmp.Enrich.RestartDetection
import Sc4snmp.Inventory.ConfigReplacement
import Sc4snmp.Inventory.ExpiryReconciliation
import Sc4snmp.Inventory.GeneratedProfiles
import Sc4snmp.Inventory.GroupRemoval
import Sc4snmp.Inventory.InventoryStore
import Sc4snmp.Inventory.PollSchedules
import Sc4snmp.Inventory.RecordRoundTrip
import Sc4snmp.Inventory.StoreHealing
import Sc4snmp.Inventory.UiMigration
import Sc4snmp.Inventory.WalkIntervals
import Sc4snmp.Lib.Csv
import Sc4snmp.Lib.Interleave
import Sc4snmp.Lib.Json
import Sc4snmp.Lib.Minimals
import Sc4snmp.Lib.Numeral
import Sc4snmp.Snmp.AcceptedProfiles
import Sc4snmp.Snmp.ContainerJoin
import Sc4snmp.Snmp.LostVarbinds
import Sc4snmp.Snmp.MappingMerge
import Sc4snmp.Snmp.MergedProfiles
import Sc4snmp.Snmp.MibIndex
import Sc4snmp.Snmp.MultiBulkWalk
import Sc4snmp.Snmp.ProfileAttribution
import Sc4snmp.Snmp.ProfileCombination
import Sc4snmp.Snmp.ProfileLookup
import Sc4snmp.Snmp.ProfileRefresh
import Sc4snmp.Snmp.ReferenceWalk
import Sc4snmp.Snmp.Trap
import Sc4snmp.Snmp.TrapCoercion
import Sc4snmp.Snmp.TrapResolution
import Sc4snmp.Snmp.TrapStatus
import Sc4snmp.Snmp.WalkBatches
import Sc4snmp.Snmp.WalkCompleteness
import Sc4snmp.Snmp.WalkProgress
import Sc4snmp.Snmp.WalkSoundness
import Sc4snmp.Splunk.JsonValidity
import Sc4snmp.Splunk.Pipeline
import Sc4snmp.Splunk.Send
import Sc4snmp.Splunk.SerialNumbers
import Sc4snmp.Splunk.TrapEvents
import Sc4snmp.Traps.EngineIds
import Sc4snmp.Traps.Users
import Sc4snmp.Inventory.ConditionNegation
import Sc4snmp.Inventory.ConditionOperands
import Sc4snmp.Inventory.ConditionOrder
import Sc4snmp.Inventory.ConditionalVarbinds
import Sc4snmp.Inventory.ProfileAssignment
import Sc4snmp.Lib.LongestPrefix
import Sc4snmp.Lib.SelfDelimiting
import Sc4snmp.Snmp.GroupKeys
import Sc4snmp.Snmp.MibLookup
import Sc4snmp.Common.CsvRecordManager
import Sc4snmp.Common.DiscoveryRecord
import Sc4snmp.Discovery.DeviceGroup
import Sc4snmp.Discovery.DeviceStore
import Sc4snmp.Splunk.CustomTranslations
import Sc4snmp.Discovery.DiscoverDevices
import Sc4snmp.Discovery.DeviceCsv
import Sc4snmp.Common.CustomCache
import Sc4snmp.Common.MongoClient
import Sc4snmp.Discovery.Loader
import Sc4snmp.Inventory.DeviceRemoval
import Sc4snmp.Snmp.Auth
import Sc4snmp.Snmp.MibLoads
import Sc4snmp.Snmp.PollerWorker
import Sc4snmp.Common.ConfigGathering
import Sc4snmp.DockerScripts.ManageSecrets
import Sc4snmp.Inventory.ConfigSwitch
import Sc4snmp.Splunk.Delivery
import Sc4snmp.Lib.Buckets
import Sc4snmp.Enrich.History
import Sc4snmp.Inventory.AssignedProfiles
import Sc4snmp.Inventory.ReportedProfiles
import Sc4snmp.Lib.Ipv6Text
import Sc4snmp.Traps.TrapValues
