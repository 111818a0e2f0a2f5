import ReactiveDemo.ForStd.Run
import ReactiveDemo.ForStd.Ascii
import ReactiveDemo.ForStd.KeyedTable
import ReactiveDemo.ForStd.KeyedMerge
import ReactiveDemo.ForStd.List
import ReactiveDemo.ForStd.Piles
import ReactiveDemo.ForStd.Window
import ReactiveDemo.ForStd.Sort
import ReactiveDemo.ForStd.Pool
import ReactiveDemo.ForStd.Fold
import ReactiveDemo.ForStd.Count
import ReactiveDemo.ReSwift.Store
import ReactiveDemo.ReSwift.Coherence
import ReactiveDemo.Siesta.Request
import ReactiveDemo.Siesta.Response
import ReactiveDemo.ObjectStore.IndexSet
import ReactiveDemo.ObjectStore.ChangeSet
import ReactiveDemo.ObjectStore.MergeChanges
import ReactiveDemo.ObjectStore.CollectionNotifier
import ReactiveDemo.Json
import ReactiveDemo.Client.Realm
import ReactiveDemo.Client.Redux
import ReactiveDemo.Client.Reducers
import ReactiveDemo.Client.Screen
import ReactiveDemo.Client.Process
import ReactiveDemo.Client.App
import ReactiveDemo.Client.Frame
import ReactiveDemo.Client.Calls
import ReactiveDemo.Client.Merge
import ReactiveDemo.Client.StaleAuth
import ReactiveDemo.Client.Logout
import ReactiveDemo.Client.TableRows
import ReactiveDemo.Client.Notifications
import ReactiveDemo.Client.Posts
import ReactiveDemo.Client.AppStore
import ReactiveDemo.Client.Refinement
import ReactiveDemo.Client.AppRuns
import ReactiveDemo.Client.Presses
import ReactiveDemo.Client.Thoughts
import ReactiveDemo.Client.SessionSync
import ReactiveDemo.Client.Recall
import ReactiveDemo.Server.Ruby
import ReactiveDemo.Server.Database
import ReactiveDemo.Server.Controllers
import ReactiveDemo.Server.Requests
import ReactiveDemo.Server.Credentials
import ReactiveDemo.Server.Authorisation
import ReactiveDemo.Server.Listing
import ReactiveDemo.Server.Signup
import ReactiveDemo.Server.DuplicateSignup
import ReactiveDemo.System.Feed
import ReactiveDemo.System.World
import ReactiveDemo.System.Stack
import ReactiveDemo.System.Tokens
import ReactiveDemo.System.Delivery
import ReactiveDemo.System.Attribution
import ReactiveDemo.System.Duplicates
import ReactiveDemo.System.Conservation
import ReactiveDemo.System.Polling
import ReactiveDemo.System.OwnPosts
import ReactiveDemo.System.Rejected
import ReactiveDemo.System.Fleet
import ReactiveDemo.System.Convergence
