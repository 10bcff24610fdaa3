/-!
# Kinds of files that a reader sees or hears

* `MediaType.textTypes`, `MediaType.imageTypes`, `MediaType.audioTypes`, `MediaType.videoTypes`, …: the subtypes of a
  media type, each with the extensions of its files.
-/

namespace SnippetPreview.MediaType

def audioTypes : List (String × String) :=
  [("aac", "aac adts"), ("ac3", "ac3"), ("aiff", "aif aifc aiff cdda"), ("annodex", "axa"), ("audible", "aa"),
    ("basic", "au snd"), ("flac", "flac"), ("m4a", "m4a"), ("m4b", "m4b"), ("m4p", "m4p"), ("mid", "mid midi rmi"),
    ("midi", "kar"), ("mp4", "mp4a"), ("mpeg", "m2a m3a mp2a mp3 mpga"), ("ogg", "oga ogg opus spx"), ("s3m", "s3m"),
    ("scpls", "pls"), ("silk", "sil"), ("vnd.audible.aax", "aax"), ("vnd.dece.audio", "uva uvva"),
    ("vnd.digital-winds", "eol"), ("vnd.dlna.adts", "adt"), ("vnd.dra", "dra"), ("vnd.dts", "dts"),
    ("vnd.dts.hd", "dtshd"), ("vnd.lucent.voice", "lvp"), ("vnd.ms-playready.media.pya", "pya"),
    ("vnd.nuera.ecelp4800", "ecelp4800"), ("vnd.nuera.ecelp7470", "ecelp7470"), ("vnd.nuera.ecelp9600", "ecelp9600"),
    ("vnd.rip", "rip"), ("wav", "wav wave"), ("webm", "weba"), ("x-caf", "caf"), ("x-gsm", "gsm"), ("x-m4r", "m4r"),
    ("x-matroska", "mka"), ("x-mpegurl", "m3u m3u8"), ("x-ms-wax", "wax"), ("x-ms-wma", "wma"),
    ("x-pn-realaudio", "ra ram"), ("x-pn-realaudio-plugin", "rpm"), ("x-sd2", "sd2"), ("x-smd", "smd smx smz"),
    ("xm", "xm")]

def chemicalTypes : List (String × String) :=
  [("x-cdx", "cdx"), ("x-cif", "cif"), ("x-cmdf", "cmdf"), ("x-cml", "cml"), ("x-csml", "csml"), ("x-xyz", "xyz")]

def fontTypes : List (String × String) :=
  [("collection", "ttc"), ("ttf", "ttf"), ("woff2", "woff2")]

def imageTypes : List (String × String) :=
  [("aces", "exr"), ("apng", "apng"), ("avci", "avci"), ("avcs", "avcs"), ("avif", "avif"), ("avif-sequence", "avifs"),
    ("bmp", "bmp dib"), ("cgm", "cgm"), ("cis-cod", "cod"), ("dicom-rle", "drle"), ("emf", "emf"), ("fits", "fits"),
    ("g3fax", "g3"), ("gif", "gif"), ("heic", "heic"), ("heic-sequence", "heics"), ("heif", "heif"),
    ("heif-sequence", "heifs"), ("ief", "ief"), ("jls", "jls"), ("jp2", "jp2 jpg2"), ("jpeg", "jfif jpe jpeg jpg"),
    ("jpm", "jpm"), ("jpx", "jpf jpx"), ("ktx", "ktx"), ("pict", "pct pic pict"), ("png", "png pnz"),
    ("prs.btif", "btif"), ("prs.pti", "pti"), ("sgi", "sgi"), ("svg+xml", "svg svgz"), ("t38", "t38"),
    ("tiff", "tif tiff"), ("tiff-fx", "tfx"), ("vnd.airzip.accelerator.azv", "azv"),
    ("vnd.dece.graphic", "uvg uvi uvvg uvvi"), ("vnd.djvu", "djv djvu"), ("vnd.dvb.subtitle", "sub"),
    ("vnd.fastbidsheet", "fbs"), ("vnd.fpx", "fpx"), ("vnd.fst", "fst"), ("vnd.fujixerox.edmics-mmr", "mmr"),
    ("vnd.fujixerox.edmics-rlc", "rlc"), ("vnd.ms-modi", "mdi"), ("vnd.ms-photo", "wdp"), ("vnd.net-fpx", "npx"),
    ("vnd.rn-realflash", "rf"), ("vnd.tencent.tap", "tap"), ("vnd.valve.source.texture", "vtf"),
    ("vnd.wap.wbmp", "wbmp"), ("vnd.xiff", "xif"), ("webp", "webp"), ("x-3ds", "3ds"), ("x-cmu-raster", "ras"),
    ("x-cmx", "cmx"), ("x-freehand", "fh fh4 fh5 fh7 fhc"), ("x-icon", "ico"), ("x-jg", "art"), ("x-jng", "jng"),
    ("x-macpaint", "mac pnt pntg"), ("x-mrsid-image", "sid"), ("x-portable-anymap", "pnm"),
    ("x-portable-bitmap", "pbm"), ("x-portable-graymap", "pgm"), ("x-portable-pixmap", "ppm"),
    ("x-quicktime", "qti qtif"), ("x-rgb", "rgb"), ("x-tga", "tga"), ("x-xbitmap", "xbm"), ("x-xpixmap", "xpm"),
    ("x-xwindowdump", "xwd")]

def messageTypes : List (String × String) :=
  [("disposition-notification", "disposition-notification"), ("global", "u8msg"), ("global-delivery-status", "u8dsn"),
    ("global-disposition-notification", "u8mdn"), ("global-headers", "u8hdr"), ("rfc822", "eml mht mhtml mime nws")]

def modelTypes : List (String × String) :=
  [("gltf+json", "gltf"), ("gltf-binary", "glb"), ("iges", "iges igs"), ("mesh", "mesh msh silo"),
    ("vnd.collada+xml", "dae"), ("vnd.gdl", "gdl"), ("vnd.gtw", "gtw"), ("vnd.vtu", "vtu"), ("vrml", "vrml"),
    ("x3d+binary", "x3db x3dbz"), ("x3d+vrml", "x3dv x3dvz"), ("x3d+xml", "x3d x3dz")]

def textTypes : List (String × String) :=
  [("cache-manifest", "appcache"), ("calendar", "ical icalendar ics ifb"), ("coffeescript", "coffee litcoffee"),
    ("css", "css"), ("csv", "csv"), ("dlm", "dlm"), ("h323", "323"), ("html", "htm html hxt shtml"), ("iuls", "uls"),
    ("jade", "jade"), ("javascript", "js"), ("jsx", "jsx"), ("less", "less"), ("markdown", "markdown md"),
    ("mathml", "mml"), ("n3", "n3"),
    ("plain", "asm bas c cc cd cfg cmd cnf conf cpp cs csdproj csproj cxx dbproj def dsw h hpp hxx i idl in inc ini inl ipproj jsxbin list log lst mak map mk odh odl pkgdef pkgundef rc rc2 rct rgs s scr sln sol sor srf text tlh tli txt user vb vbdproj vbproj vcs vddproj vdp vdproj vspscc vsscc vssscc xdr xoml"),
    ("prs.lines.tag", "dsc"), ("richtext", "rtx"), ("scriptlet", "sct wsc"), ("sgml", "sgm sgml"), ("shex", "shex"),
    ("slim", "slim slm"), ("stylus", "styl stylus"), ("tab-separated-values", "tsv"), ("turtle", "ttl"),
    ("uri-list", "uri uris urls"), ("vbscript", "vbs"), ("vcard", "vcard"), ("vnd.curl", "curl"),
    ("vnd.curl.dcurl", "dcurl"), ("vnd.curl.mcurl", "mcurl"), ("vnd.curl.scurl", "scurl"), ("vnd.fly", "fly"),
    ("vnd.fmi.flexstor", "flx"), ("vnd.graphviz", "gv"), ("vnd.in3d.3dml", "3dml"), ("vnd.in3d.spot", "spot"),
    ("vnd.sun.j2me.app-descriptor", "jad"), ("vnd.wap.wml", "wml"), ("vnd.wap.wmlscript", "wmls"), ("vtt", "vtt"),
    ("webviewhtml", "htt"), ("x-c", "dic hh"), ("x-component", "htc"), ("x-fortran", "f f77 f90 for"),
    ("x-handlebars-template", "hbs"), ("x-hdml", "hdml"), ("x-html-insertion", "qht qhtm"), ("x-lua", "lua"),
    ("x-markdown", "mkd"), ("x-ms-contact", "contact"), ("x-ms-group", "group"), ("x-ms-iqy", "iqy"),
    ("x-ms-rqy", "rqy"), ("x-nfo", "nfo"), ("x-opml", "opml"), ("x-pascal", "p pas"), ("x-processing", "pde"),
    ("x-rust", "rs"), ("x-sass", "sass"), ("x-scss", "scss"), ("x-setext", "etx"), ("x-sfv", "sfv"),
    ("x-suse-ymp", "ymp"), ("x-toml", "toml"), ("x-uuencode", "uu"), ("x-vcard", "vcf"), ("x-yaml", "yaml yml"),
    ("xml", "addin disco dtd dtsconfig mno ssisdeploymentmanifest vml vsct vsixlangpack vsixmanifest vssettings vstemplate wsdl xml xrm-ms xsd xsf xsl xslt")]

def videoTypes : List (String × String) :=
  [("3gpp", "3gp 3gpp"), ("3gpp2", "3g2 3gp2"), ("annodex", "axv"), ("divx", "divx"), ("h261", "h261"),
    ("h263", "h263"), ("h264", "h264"), ("jpeg", "jpgv"), ("jpm", "jpgm"), ("mj2", "mj2 mjp2"),
    ("mp4", "f4v mp4 mp4v mpg4"), ("mpeg", "m1v m2v mod mp2 mp2v mpa mpe mpeg mpg mpv2 vbk"), ("ogg", "ogv"),
    ("quicktime", "mov mqv qt"), ("vnd.dece.hd", "uvh uvvh"), ("vnd.dece.mobile", "uvm uvvm"),
    ("vnd.dece.pd", "uvp uvvp"), ("vnd.dece.sd", "uvs uvvs"), ("vnd.dece.video", "uvv uvvv"),
    ("vnd.dlna.mpeg-tts", "m2t m2ts mts ts tts"), ("vnd.dvb.file", "dvb"), ("vnd.fvt", "fvt"),
    ("vnd.mpegurl", "m4u mxu"), ("vnd.ms-playready.media.pyv", "pyv"), ("vnd.uvvu.mp4", "uvu uvvu"),
    ("vnd.vivo", "viv"), ("webm", "webm"), ("x-dv", "dif dv"), ("x-fli", "fli"), ("x-flv", "flv"), ("x-ivf", "ivf"),
    ("x-la-asf", "lsf lsx"), ("x-m4v", "m4v"), ("x-matroska", "mks mkv"), ("x-matroska-3d", "mk3d"), ("x-mng", "mng"),
    ("x-ms-asf", "asf asr asx nsc"), ("x-ms-vob", "vob"), ("x-ms-wm", "wm"), ("x-ms-wmp", "wmp"), ("x-ms-wmv", "wmv"),
    ("x-ms-wmx", "wmx"), ("x-ms-wvx", "wvx"), ("x-msvideo", "avi"), ("x-sgi-movie", "movie"), ("x-smv", "smv")]

def shaderTypes : List (String × String) :=
  [("x-fragment", "frag"), ("x-vertex", "vert")]

def worldTypes : List (String × String) :=
  [("x-vrml", "flr wrl wrz xaf xof")]

def conferenceTypes : List (String × String) :=
  [("x-cooltalk", "ice")]

def drawingTypes : List (String × String) :=
  [("x-dwf", "dwf")]

end SnippetPreview.MediaType
