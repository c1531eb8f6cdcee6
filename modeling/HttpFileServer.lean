import HttpFileServer.Threads
import HttpFileServer.Rwlock.Basic
import HttpFileServer.Rwlock.ReaderPriority
import HttpFileServer.Rwlock.WriterPriority
import HttpFileServer.Rwlock.NWay
import HttpFileServer.Rwlock.Policies
import HttpFileServer.Queue
import HttpFileServer.Server.Registry
import HttpFileServer.Server.Workers
import HttpFileServer.Server.Slots
import HttpFileServer.Http.Regex
import HttpFileServer.Http.Request
import HttpFileServer.Http.RoundTrip
import HttpFileServer.Http.Getters
import HttpFileServer.Server.Handlers
import HttpFileServer.Asgn2.Server
import HttpFileServer.Store
import HttpFileServer.Asgn1.Memory
import HttpFileServer.Asgn2.Loop
import HttpFileServer.Server.Versions
