import OmegaEdit.ChangeLog.Spool
import OmegaEdit.ChangeLog.Agreement
import OmegaEdit.ChangeLog.Sequences
import OmegaEdit.Client.DirtyFlag
import OmegaEdit.Timeline.SavedMarker
import OmegaEdit.Timeline.Rejection
import OmegaEdit.Timeline.Archives
import OmegaEdit.Timeline.IndexLock
import OmegaEdit.Server.Guards
import OmegaEdit.Server.Attachments
import OmegaEdit.Server.Events
import OmegaEdit.Server.Deadlock
import OmegaEdit.Ai.AllOrNothing
import OmegaEdit.Client.MutationQueue
import OmegaEdit.Client.ScopedSession
import OmegaEdit.Client.Subscriptions
import OmegaEdit.Client.EditorSearch
import OmegaEdit.SearchEnds
import OmegaEdit.StreamedReplace
import OmegaEdit.PayloadStorage
import OmegaEdit.Replacing
import OmegaEdit.SchemaRegex
import OmegaEdit.Profiles
import OmegaEdit.WholeRuns
import OmegaEdit.Transforms
import OmegaEdit.Client.Milestones
import OmegaEdit.BufferShifts
