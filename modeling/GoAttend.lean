import GoAttend.Lib.Transition
import GoAttend.Lib.Utf8
import GoAttend.Lib.Base64
import GoAttend.Lib.Json
import GoAttend.Lib.Jwt
import GoAttend.Lib.Rounding
import GoAttend.Lib.StableSort
import GoAttend.Lib.Fifo
import GoAttend.Lib.Dict
import GoAttend.Lib.Gin
import GoAttend.Lib.GoScan
import GoAttend.Lib.Int64
import GoAttend.Lib.Float64
import GoAttend.Lib.Lex
import GoAttend.Lib.PyJson.Basic
import GoAttend.Lib.PyJson.Strings
import GoAttend.Lib.PyJson.Numbers
import GoAttend.Lib.PyJson.RoundTrip
import GoAttend.Lib.PyJson.Ascii
import GoAttend.Lib.Paging
import GoAttend.Lib.Numpy
import GoAttend.Lib.Dft
import GoAttend.Attendance.Repository
import GoAttend.Attendance.System
import GoAttend.Attendance.Dedup
import GoAttend.Attendance.Status
import GoAttend.Attendance.Pending
import GoAttend.Attendance.Devices
import GoAttend.Attendance.Listing
import GoAttend.Attendance.Statement
import GoAttend.Config.Load
import GoAttend.Attendance.Worker
import GoAttend.Auth.Jwt
import GoAttend.Auth.Middleware
import GoAttend.Face.Match
import GoAttend.Face.Quality
import GoAttend.Face.Liveness
import GoAttend.Face.Storage
import GoAttend.Face.Enroll
import GoAttend.Queue.Queue
import GoAttend.HttpMiddleware.RateLimit
import GoAttend.Api.Middleware
import GoAttend.Api.Events
import GoAttend.Cloudinary.Sign
import GoAttend.NewGoAttend.FaceService
import GoAttend.NewGoAttend.Backend
