import AnySyncNode.Basic
import AnySyncNode.Acl.State
import AnySyncNode.Acl.Shared
import AnySyncNode.Acl.Replay
import AnySyncNode.Acl.Authority
import AnySyncNode.Acl.ReadKeys
import AnySyncNode.Acl.Snapshots
import AnySyncNode.Hotsync.Queue
import AnySyncNode.Hotsync.Scheduler
import AnySyncNode.Peermanager.Manager
import AnySyncNode.Nodespace.Service
import AnySyncNode.ObjectTree.Tree
import AnySyncNode.ObjectTree.DocTree
import AnySyncNode.ObjectTree.Ingest
import AnySyncNode.ObjectTree.Persistence
import AnySyncNode.ObjectTree.SnapshotChain
import AnySyncNode.ObjectTree.AddContent
import AnySyncNode.Data.AclTreeBuilder
