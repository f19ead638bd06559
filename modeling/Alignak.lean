import Alignak.ConfigParts
import Alignak.StandardDays
import Alignak.EntryReadings
import Alignak.DowntimeRuns
import Alignak.TimeperiodExcludes
import Alignak.ServiceAcks
import Alignak.Resolution
import Alignak.NotifiedContacts
import Alignak.PreparationSound
import Alignak.RetentionSound
import Alignak.BusinessImpact
import Alignak.RuleValidity
import Alignak.ExternalBatch
import Alignak.ActionRuns
import Alignak.CommandPushes
import Alignak.LinkContexts
import Alignak.GroupsSound
import Alignak.DependencyCycles
import Alignak.ExpressionSound
import Alignak.PassiveResultsSound
import Alignak.InitialBroks
import Alignak.SpareArbiter
import Alignak.Orphans
import Alignak.ExplosionMembers
import Alignak.InnerRetentionSound
import Alignak.SerializationSound
import Alignak.ProblemIdsSound
import Alignak.Flapping
import Alignak.KeySequences
import Alignak.RealmLevels
import Alignak.CleanQueuesSound
import Alignak.MacroOutputs
import Alignak.ModAttrs
import Alignak.DowntimeTriggers
import Alignak.PluginOutputsSound
import Alignak.EscalationStarts
import Alignak.MaintenanceSound
import Alignak.TimeChange
import Alignak.FreshResults
import Alignak.ContactDowntimes
import Alignak.DependencyLinks
import Alignak.ModuleRestarts
import Alignak.ServicegroupLinks
import Alignak.RealmPacks
import Alignak.ReturnedResults
import Alignak.PollRequests
import Alignak.ProcessReads
import Alignak.ImplicitInheritance
import Alignak.ServiceOverrides
import Alignak.PerfdataSound
import Alignak.ConfigBufferSound
import Alignak.MergedPeriods
import Alignak.MonthWeekdays
import Alignak.CommandEndpoint
import Alignak.ArbiterObjects
