import TaskManager.Runs.KeptAccounts
import TaskManager.Runs.Login
import TaskManager.Runs.Screens
import TaskManager.Runs.Logout
import TaskManager.Runs.ShownDraft
import TaskManager.Runs.NewTask
import TaskManager.Runs.Performing
import TaskManager.Runs.Failures
import TaskManager.Runs.Forms
import TaskManager.Runs.Leaving
import TaskManager.Runs.EarlySave
import TaskManager.Runs.Selection
import TaskManager.Runs.StoredTexts
import TaskManager.Runs.NoInfluence
import TaskManager.Runs.Renaming
import TaskManager.Runs.Settling
import TaskManager.Runs.Routed
import TaskManager.Runs.OnDevice
import TaskManager.Runs.Tasks
import TaskManager.Runs.Spinner
import TaskManager.Runs.Messages
import TaskManager.Runs.OnIos
