import Sunstrider.Proofs.LootCount
import Sunstrider.Proofs.RollTally
import Sunstrider.Proofs.FreshIds
import Sunstrider.Proofs.EventQuests
import Sunstrider.Proofs.CategoryCooldowns
import Sunstrider.Proofs.EventSpawns
import Sunstrider.Proofs.EventWindows
import Sunstrider.Proofs.Population
import Sunstrider.Proofs.AuctionBids
import Sunstrider.Proofs.AuctionGold
import Sunstrider.Proofs.InvitationRuns
import Sunstrider.Proofs.Uninvite
import Sunstrider.Proofs.LeaderRuns
import Sunstrider.Proofs.PoolRecursion
import Sunstrider.Proofs.PendingChanges
import Sunstrider.Proofs.GuildLeaders
import Sunstrider.Proofs.ReadRuns
import Sunstrider.Proofs.SendQueue
import Sunstrider.Proofs.MotionMaster
import Sunstrider.Proofs.GuildBank
import Sunstrider.Proofs.ResetRuns
import Sunstrider.Proofs.InstanceResets
import Sunstrider.Proofs.LogRing
import Sunstrider.Proofs.ReselectVictim
import Sunstrider.Proofs.ThreatSplit
import Sunstrider.Proofs.EventProcessor
import Sunstrider.Proofs.ArenaRatings
import Sunstrider.Proofs.ArenaLoading
import Sunstrider.Proofs.Skirmish
import Sunstrider.Proofs.RoundRobin
import Sunstrider.Proofs.SplitItem
import Sunstrider.Proofs.BuyBack
import Sunstrider.Proofs.LootMoney
import Sunstrider.Proofs.QuestPools
import Sunstrider.Proofs.QuestRuns
import Sunstrider.Proofs.Utf8
import Sunstrider.Proofs.PackedGuids
import Sunstrider.Proofs.CooldownPackets
import Sunstrider.Proofs.TaskScheduler
import Sunstrider.Proofs.EventMap
import Sunstrider.Proofs.SocialRows
import Sunstrider.Proofs.ReputationReloads
import Sunstrider.Proofs.SpamReports
import Sunstrider.Proofs.SavedWithdraws
import Sunstrider.Proofs.SmoothPaths
import Sunstrider.Proofs.Hyperlinks
import Sunstrider.Proofs.CommandArgs
import Sunstrider.Proofs.StoredLoot
import Sunstrider.Proofs.UpdateQueue
